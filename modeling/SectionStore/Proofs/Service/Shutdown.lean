import SectionStore.Provider.Memory
import SectionStore.Service
import SectionStore.Proofs.Store.Settled

/-!
# What a service leaves on disk

`Run` is a run of a service in any order of requests, alarms and changes of its providers, with the
record of the documents that its writes built. In every run in which files can be replaced, the last
document of a file is its newest content (`Run.settled`). When the service ends, a last write
commits it, unless that write fails to serialize: then nothing is committed any more
(`last_document_committed_iff`), not even for files whose own providers did not fail
(`shutdown_loses_document`).
-/

namespace SectionStore

open Holdings

/-- Every replacement of the file of a path succeeds. -/
def Disk.Writable (disk : Disk) (path : Path) : Prop :=
  ∀ content, (disk.replace path (.whole content)).1 = .ok ()

theorem Disk.Writable.allows {disk : Disk} {path : Path} (writable : disk.Writable path) :
    ∃ location, disk.Allows path location := by
  apply Classical.byContradiction
  intro none
  obtain ⟨e, failed, -⟩ := Disk.replace_of_not_allows (not_exists.1 none) ByteArray.empty
  rw [writable ByteArray.empty] at failed
  cases failed

theorem Disk.Allows.writable {disk : Disk} {path : Path} {location : Location}
    (allowed : disk.Allows path location) : disk.Writable path :=
  fun content => (Disk.replace_of_allows allowed content).1

/-- Does a message install user files? -/
def Message.installs : Message → Bool
  | .request (.setUserFiles _) => true
  | .request (.switchUserFiles _) => true
  | _ => false

/-- Does a message write? -/
def Message.writes : Message → Bool
  | .request (.write _) => true
  | .request .shutdown => true
  | _ => false

namespace Service

variable {W : Type}

/-- Does the next step install user files? -/
def installsNext (service : Service W) : Bool :=
  service.isRunning && service.queue.head?.any (·.installs)

/-- Does the next step write? Without messages and handles, it does so for the last time. -/
def writesNext (service : Service W) : Bool :=
  service.isRunning && service.queue.head?.elim (!service.isHeld) (·.writes)

/-- Is the next step the last one? -/
def endsNext (service : Service W) : Prop :=
  service.isRunning = true ∧
    (service.queue.head?.isNone ∧ service.isHeld = false ∨
      ∃ queue, service.queue = .request .shutdown :: queue)

/-- The files of the store are separate, and every replacement of them succeeds. -/
structure Smooth (service : Service W) : Prop where
  separate : Store.Separate service.store.disk.files service.store.files
  writable : ∀ file ∈ service.store.files, service.store.disk.Writable file.path

theorem Smooth.safe {service : Service W} (smooth : Smooth service) : Safe service.store.holdings :=
  ⟨smooth.separate, fun file hfile => .inr (smooth.writable file hfile).allows⟩

theorem settled_of_files {log : List Serving} {h h' : Holdings W} (files : h'.files = h.files)
    (disk : h'.disk = h.disk) (settled : Settled log h) : Settled log h' := by
  rw [Settled, files, disk]
  exact settled

theorem operate_snd (op : StoreM W Timers Unit) (service : Service W) :
    (service.operate op).2 = { service with store := Store.after op service.store } := by
  unfold operate Store.after
  split <;> simp_all

theorem holdings_stop (service : Service W) :
    service.stop.store.holdings = service.store.holdings :=
  rfl

variable [ProviderHost W]

/-- The documents that the next step attempts to build. -/
def nextServings (service : Service W) : List Serving :=
  if service.writesNext then service.store.holdings.servings else []

/-- The runs of a service, with the attempts of its writes, and whether there was a write. Files can
be replaced, and user files are not installed any more after the first write. -/
inductive Run : Service W → List Serving → Bool → Prop where
  | start (store : Store W Timers) : Run (.new store) [] false
  | send {service : Service W} {log : List Serving} {written : Bool} (request : Request)
      (run : Run service log written) : Run (service.send request) log written
  | expire {service : Service W} {log : List Serving} {written : Bool} (task : TaskId)
      (run : Run service log written) : Run (service.expire task) log written
  | dropHandle {service : Service W} {log : List Serving} {written : Bool}
      (run : Run service log written) : Run service.dropHandle log written
  | change {service : Service W} {log : List Serving} {written : Bool} (providers : W)
      (run : Run service log written) :
      Run { service with store := { service.store with providers } } log written
  | step {service : Service W} {log : List Serving} {written : Bool} (run : Run service log written)
      (smooth : Smooth service) (early : service.installsNext = true → written = false) :
      Run service.step.2 (log ++ service.nextServings) (written || service.writesNext)

/-- The answer to a request keeps built documents. -/
theorem settled_answer {log : List Serving} {service : Service W} {request : Request}
    (safe : Safe service.store.holdings) (settled : Settled log service.store.holdings)
    (early : (Message.request request).installs = true → log = []) :
    Settled
      (log ++ if (Message.request request).writes then service.store.holdings.servings else [])
      (answer request service).2.store.holdings := by
  have op (o : StoreM W Timers Unit) :
      (service.operate o).2 = { service with store := Store.after o service.store } :=
    operate_snd o service
  cases request with
  | write force =>
    simp only [Message.writes, if_true, answer, op]
    exact Store.settled_write force safe settled
  | shutdown =>
    simp only [Message.writes, if_true, answer, holdings_stop, op]
    exact Store.settled_write true safe settled
  | setUserFiles files =>
    simp only [Message.writes, Bool.false_eq_true, if_false, List.append_nil, early rfl]
    exact settled_nil _
  | switchUserFiles files =>
    simp only [Message.writes, Bool.false_eq_true, if_false, List.append_nil, early rfl]
    exact settled_nil _
  | register name file =>
    simp only [Message.writes, Bool.false_eq_true, if_false, List.append_nil, answer, op]
    unfold Store.after Store.register
    cases service.store.registry.register name file <;> exact settled
  | read =>
    simp only [Message.writes, Bool.false_eq_true, if_false, List.append_nil, answer, op]
    obtain ⟨files, disk⟩ := Store.files_read service.store
    exact settled_of_files (h := service.store.holdings) files disk settled
  | isPresent => simpa [Message.writes, answer] using settled
  | setVerbose verbose =>
    simp only [Message.writes, Bool.false_eq_true, if_false, List.append_nil, answer, op]
    exact settled
  | dump => simpa [Message.writes, answer] using settled

/-- A step keeps built documents. -/
theorem settled_step {log : List Serving} {service : Service W} (smooth : Smooth service)
    (settled : Settled log service.store.holdings)
    (early : service.installsNext = true → log = []) :
    Settled (log ++ service.nextServings) service.step.2.store.holdings := by
  unfold nextServings writesNext step
  cases running : service.isRunning with
  | false => simpa using settled
  | true =>
    cases arrived : service.queue with
    | nil =>
      cases held : service.isHeld with
      | true => simpa using settled
      | false =>
        simp only [List.head?_nil, Option.elim_none, Bool.not_false, Bool.and_self, if_true,
          Bool.false_eq_true, if_false, holdings_stop, operate_snd]
        exact Store.settled_write true smooth.safe settled
    | cons message queue =>
      cases message with
      | request request =>
        have early' : (Message.request request).installs = true → log = [] := by
          intro installs
          exact early (by simp [installsNext, running, arrived, installs])
        have safe : Safe ({ service with queue, isRunning := true } : Service W).store.holdings :=
          smooth.safe
        simpa using settled_answer safe settled early'
      | alarm id =>
        simp only [List.head?_cons, Option.elim_some, Message.writes, Bool.and_false,
          Bool.false_eq_true, if_false, List.append_nil, if_true, operate_snd]
        exact Store.settled_onAlarm id smooth.safe settled

/-- Before the first write nothing has been built, and built documents are kept throughout. -/
theorem Run.settled {service : Service W} {log : List Serving} {written : Bool}
    (run : Run service log written) :
    (written = false → log = []) ∧ Settled log service.store.holdings := by
  induction run with
  | start store => exact ⟨fun _ => rfl, settled_nil _⟩
  | @send service log written request run ih =>
    refine ⟨ih.1, ?_⟩
    have same : (service.send request).store = service.store := by
      unfold Service.send
      split <;> rfl
    rw [same]
    exact ih.2
  | @expire service log written task run ih =>
    refine ⟨ih.1, ?_⟩
    have same : (service.expire task).store.holdings = service.store.holdings := by
      unfold Service.expire
      split <;> rfl
    rw [same]
    exact ih.2
  | dropHandle run ih => exact ih
  | change providers run ih => exact ⟨ih.1, settled_of_files rfl rfl ih.2⟩
  | @step service log written run smooth early ih =>
    constructor
    · intro none
      rw [Bool.or_eq_false_iff] at none
      rw [ih.1 none.1, nextServings, none.2]
      rfl
    · exact settled_step smooth ih.2 fun installs => ih.1 (early installs)

/-- Where files can be replaced, a forced write fails only if it fails to serialize. -/
theorem Smooth.succeeds_write {service : Service W} (smooth : Smooth service) {isNew : Bool}
    (refreshed : service.store.holdings.refreshResult = .ok isNew) :
    Store.Succeeds (Store.write true) service.store := by
  rw [(Store.write_true_of_refresh_ok refreshed).2]
  apply Store.commitAll_fault_eq_none_iff.2
  intro file hfile _
  obtain ⟨other, hother, same⟩ :=
    (keeps_refreshed service.store.holdings).exists_file hfile
  rw [← StoreFile.path_eq_of_bare same]
  exact (smooth.writable other hother).allows

/-- The last step writes once more and stops. -/
theorem step_of_endsNext {service : Service W} (ends : service.endsNext) :
    service.step.2.isRunning = false ∧ service.writesNext = true ∧
      service.step.2.store.holdings = (Store.after (Store.write true) service.store).holdings := by
  obtain ⟨running, ⟨none, dropped⟩ | ⟨queue, arrived⟩⟩ := ends
  · have empty : service.queue = [] := by simpa using none
    unfold writesNext step
    rw [running, empty, dropped]
    refine ⟨rfl, rfl, ?_⟩
    simp only [if_true, Bool.false_eq_true, if_false, holdings_stop, operate_snd]
  · unfold writesNext step
    rw [running, arrived]
    refine ⟨rfl, rfl, ?_⟩
    simp only [if_true, answer, holdings_stop, operate_snd]

/-- When a service ends, the last document of a file is on disk exactly if the last write succeeds,
or if the document had been committed before. -/
theorem last_document_committed_iff {service : Service W} {log : List Serving} {written : Bool}
    (run : Run service log written) (smooth : Smooth service) (ends : service.endsNext) :
    service.step.2.isRunning = false ∧
      ∀ file ∈ service.step.2.store.files, ∀ document,
        Serving.lastDocument? file.path (log ++ service.nextServings) = some document →
        (service.step.2.store.disk.files.read file.path = .ok document ↔
          Store.Succeeds (Store.write true) service.store ∨
            service.store.disk.files.read file.path = .ok document) := by
  obtain ⟨stopped, writes, last⟩ := step_of_endsNext ends
  refine ⟨stopped, ?_⟩
  intro file hfile document built
  rw [nextServings, if_pos writes] at built
  have files : service.step.2.store.files = (Store.after (Store.write true) service.store).files :=
    congrArg Holdings.files last
  have disk : service.step.2.store.disk = (Store.after (Store.write true) service.store).disk :=
    congrArg Holdings.disk last
  rw [files] at hfile
  rw [disk]
  have newest : file.newest? (Store.after (Store.write true) service.store).disk = some document :=
    Store.settled_write true smooth.safe run.settled.2 file hfile document built
  cases result : service.store.holdings.refreshResult with
  | ok isNew =>
    have succeeds := smooth.succeeds_write result
    rw [StoreFile.newest?, Store.pending_of_write_true succeeds file hfile] at newest
    exact ⟨fun _ => .inl succeeds, fun _ => FileSystem.read_of_content? newest⟩
  | error e =>
    obtain ⟨fails, kept⟩ := Store.write_of_refresh_error true result
    have same : (Store.after (Store.write true) service.store).disk = service.store.disk :=
      congrArg Holdings.disk kept
    rw [same]
    exact ⟨.inr, fun h => h.resolve_left fails⟩

/-! ### Both ends are reached -/

/-- A store with a shared file and a user file, each with one provider, and new data for the first.
-/
def twoFiles : Store Memory Timers :=
  let empty : Store Memory Timers := .new .default (.new ⟨"s.xml"⟩ .sharedGeneral none)
    (Memory.empty.update "A" (·.set (Utf8.encode ['1']))) (.ofFiles .new) (.new false)
  { empty with
    registry := ⟨.primary, .default, [⟨"A", .sharedGeneral⟩, ⟨"U", .userGeneral⟩]⟩
    users := some [.new ⟨"u.xml"⟩ .userGeneral none] }

/-- What happens to the provider of the user file before the end: it gets data, and is told to fail
if asked. -/
def beforeEnd (fails : Bool) (m : Memory) : Memory :=
  m.update "U" fun p =>
    { p.set (Utf8.encode ['2']) with
      plan := ⟨if fails then some (.other "refused") else none, none, .any⟩ }

/-- A service that has buffered the data of the shared file when it is asked to end. -/
def lastRequest (fails : Bool) : Service Memory :=
  let store := Store.after (Store.write false) twoFiles
  ⟨{ store with providers := beforeEnd fails store.providers }, [.request .shutdown], true, true⟩

/-- In the directory where relative paths begin, a file can be put under any short name. -/
theorem writable_new {name : String} (named : (Path.mk name).fileName? = some name)
    (target : FileSystem.new.target? ⟨name⟩ = some [name])
    (temporary : ((Disk.ofFiles .new).temporaryPlace ⟨name⟩ name).toOption.isSome = true) :
    (Disk.ofFiles .new).Writable ⟨name⟩ := by
  cases found : (Disk.ofFiles .new).temporaryPlace ⟨name⟩ name with
  | error fault => simp [found, Except.toOption] at temporary
  | ok place =>
    have allowed : (Disk.ofFiles .new).Allows ⟨name⟩ [name] :=
      ⟨fun _ _ => rfl, ⟨name, place, named, found⟩, target, by
        simp [Disk.ofFiles, FileSystem.new, FileSystem.get?]⟩
    exact allowed.writable

theorem smooth_of_paths {service : Service Memory}
    (paths : service.store.files.map (·.path) = [⟨"s.xml"⟩, ⟨"u.xml"⟩])
    (disk : service.store.disk = .ofFiles .new) : Smooth service := by
  have shared : FileSystem.new.target? ⟨"s.xml"⟩ = some ["s.xml"] := by decide +kernel
  have user : FileSystem.new.target? ⟨"u.xml"⟩ = some ["u.xml"] := by decide +kernel
  constructor
  · have separate : [Path.mk "s.xml", ⟨"u.xml"⟩].Pairwise fun path other =>
        path ≠ other ∧ FileSystem.new.Apart path other := by
      refine List.pairwise_pair.2 ⟨by decide, ?_⟩
      intro location here there
      rw [user, ← here, shared] at there
      revert there
      decide
    rw [← paths] at separate
    rw [disk]
    exact List.pairwise_map.1 separate
  · intro file hfile
    have inside : file.path ∈ service.store.files.map (·.path) := List.mem_map_of_mem hfile
    rw [paths] at inside
    simp only [List.mem_cons, List.not_mem_nil, or_false] at inside
    rw [disk]
    rcases inside with h | h <;> rw [h]
    · exact writable_new (by decide +kernel) shared (by decide +kernel)
    · exact writable_new (by decide +kernel) user (by decide +kernel)

theorem run_lastRequest (fails : Bool) :
    Run (lastRequest fails) ([] ++ ((Service.new twoFiles).send (.write false)).nextServings) true ∧
      Smooth (lastRequest fails) ∧ (lastRequest fails).endsNext := by
  have buffered : ((Service.new twoFiles).send (.write false)).step.2 =
      ⟨Store.after (Store.write false) twoFiles, [], true, true⟩ :=
    operate_snd (Store.write false) ⟨twoFiles, [], true, true⟩
  have smooth : Smooth ((Service.new twoFiles).send (.write false)) := smooth_of_paths rfl rfl
  have early : ((Service.new twoFiles).send (.write false)).installsNext = true → false = false :=
    fun _ => rfl
  have run := Run.step (.send (.write false) (.start twoFiles)) smooth early
  rw [buffered] at run
  have keeps := Store.keeps_write false twoFiles
  refine ⟨.send .shutdown (.change (beforeEnd fails _) run), smooth_of_paths ?_ ?_, rfl,
    .inr ⟨[], rfl⟩⟩
  · have := congrArg (List.map (·.path)) keeps.files
    rw [List.map_map, List.map_map] at this
    exact this
  · exact congrArg Holdings.disk (Store.holdings_write_false twoFiles)

/-- The record of the run up to the last request. -/
abbrev logBefore : List Serving :=
  [] ++ ((Service.new twoFiles).send (.write false)).nextServings

/-- A document was built for the shared file, and the file is there at the end. -/
theorem built_lastRequest (fails : Bool) :
    ∃ file ∈ (lastRequest fails).step.2.store.files, file.path = ⟨"s.xml"⟩ ∧ ∃ document,
      Serving.lastDocument? file.path (logBefore ++ (lastRequest fails).nextServings) =
        some document := by
  have present : (lastRequest fails).step.2.store.files.any (·.path = ⟨"s.xml"⟩) = true := by
    cases fails <;> decide +kernel
  have built : (Serving.lastDocument? ⟨"s.xml"⟩
      (logBefore ++ (lastRequest fails).nextServings)).isSome = true := by
    cases fails <;> decide +kernel
  obtain ⟨file, hfile, path⟩ := List.any_eq_true.1 present
  rw [decide_eq_true_eq] at path
  obtain ⟨document, hdocument⟩ := Option.isSome_iff_exists.1 built
  exact ⟨file, hfile, path, document, path ▸ hdocument⟩

/-- Without a failure the document is on disk when the service has ended. -/
theorem last_document_committed_lastRequest :
    ∃ file ∈ (lastRequest false).step.2.store.files, ∃ document,
      Serving.lastDocument? file.path (logBefore ++ (lastRequest false).nextServings) =
        some document ∧
      (lastRequest false).step.2.store.disk.files.read file.path = .ok document := by
  obtain ⟨run, smooth, ends⟩ := run_lastRequest false
  obtain ⟨file, hfile, -, document, built⟩ := built_lastRequest false
  obtain ⟨-, committed⟩ := last_document_committed_iff run smooth ends
  refine ⟨file, hfile, document, built, (committed file hfile document built).2 (.inl ?_)⟩
  have refreshed : (lastRequest false).store.holdings.refreshResult.toOption.isSome = true := by
    decide +kernel
  cases result : (lastRequest false).store.holdings.refreshResult with
  | ok isNew => exact smooth.succeeds_write result
  | error e => simp [result, Except.toOption] at refreshed

/-- The document of the shared file was buffered by a write that succeeded. The provider of the user
file fails at the end, and the document is lost. -/
theorem shutdown_loses_document :
    ∃ (service : Service Memory) (log : List Serving), Run service log true ∧ Smooth service ∧
      service.endsNext ∧ ∃ file ∈ service.step.2.store.files, ∃ document,
        Serving.lastDocument? file.path (log ++ service.nextServings) = some document ∧
          service.step.2.store.disk.files.read file.path ≠ .ok document := by
  obtain ⟨run, smooth, ends⟩ := run_lastRequest true
  obtain ⟨file, hfile, path, document, built⟩ := built_lastRequest true
  refine ⟨lastRequest true, _, run, smooth, ends, file, hfile, document, built, ?_⟩
  have absent : ((lastRequest true).step.2.store.disk.files.read ⟨"s.xml"⟩).toOption = none := by
    decide +kernel
  rw [path]
  intro read
  rw [read] at absent
  cases absent

end Service

end SectionStore
