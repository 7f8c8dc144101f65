import SectionStore.Proofs.Store.AtRest
import SectionStore.Proofs.Store.Stranded

/-!
# What a failed commit leaves to the next write

If failed writes are discarded, a commit takes the buffers of all files away, also of those that it
could not put in place (`unwritten`). The providers count as written since the document was built.
So a forced write that succeeds next brings such a file up to date (`Holdings.Covers`) exactly if a
provider of it has been given new data since, or if the disk holds everything anyway
(`covers_after_failure_iff`). Without new data it writes nothing, and the update is lost
(`discarded_update_lost`).
-/

namespace SectionStore

/-- The committed content of a file is a document with the payloads of all its providers. -/
def Holdings.Covers (h : Holdings Memory) (file : StoreFile) : Prop :=
  ∃ document, h.disk.files.content? file.path = some document ∧
    ∀ name ∈ h.registry.namesOf file.id,
      Envelope.Holds document name (h.providers.provider name).payload

namespace Store

open Holdings FileSystem

/-! ### A file among others -/

/-- A file of the list shares neither its id nor its place with another one. -/
def IsAlone (fs : FileSystem) (files : List StoreFile) (file : StoreFile) : Prop :=
  ∃ earlier later, files = earlier ++ file :: later ∧
    ∀ other ∈ earlier ++ later, file.id ≠ other.id ∧ fs.Apart other.path file.path

variable {registry : Registry} {m m' : Memory} {file file' : StoreFile}

/-- What becomes of a file in a refresh: it gets a fresh document if its providers have new data,
and stays as it is otherwise. -/
def IsRefreshed (registry : Registry) (m : Memory) (file file' : StoreFile) : Prop :=
  if registry.hasNewData file.id m then
    ∃ document, file' = file.buffer document ∧
      ∀ name ∈ registry.namesOf file.id, Envelope.Holds document name (m.provider name).payload
  else file' = file

theorem isRefreshed_of_refresh {isNew : Bool} (plain : m.Plain (registry.namesOf file.id))
    (run : refresh registry file m = .ok (file', isNew) m') :
    IsRefreshed registry m file file' := by
  rcases refresh_cases registry file m with
    ⟨idle, here⟩ | ⟨new, ⟨document, m₁, built, here⟩ | ⟨e, m₁, -, here⟩⟩
  all_goals
    rw [run] at here
    cases here
  · simp [IsRefreshed, idle]
  · rcases Registry.serialize_cases file.cipher plain with
      ⟨document', m₂, built', -, -, encoded⟩ | ⟨e, m₂, failed, -⟩
    · rw [built] at built'
      cases built'
      rw [IsRefreshed, if_pos new]
      exact ⟨document, rfl, fun name inside => Envelope.holds_of_encode encoded inside⟩
    · rw [built] at failed
      cases failed

theorem IsRefreshed.bare (refreshed : IsRefreshed registry m file file') :
    file'.bare = file.bare := by
  rw [IsRefreshed] at refreshed
  split at refreshed
  · obtain ⟨document, rfl, -⟩ := refreshed
    rfl
  · rw [refreshed]

/-- Whether a document is fresh is decided by the providers of the file. -/
theorem IsRefreshed.congr
    (same : ∀ name ∈ registry.namesOf file.id, m'.provider name = m.provider name)
    (fresh : IsRefreshed registry m' file file') : IsRefreshed registry m file file' := by
  have new : registry.hasNewData file.id m' = registry.hasNewData file.id m := by
    have marks := congrArg (List.any · (·.dirty)) (List.map_congr_left same)
    rwa [List.any_map, List.any_map] at marks
  rw [IsRefreshed, new] at fresh
  rw [IsRefreshed]
  split at fresh
  · rename_i dirty
    obtain ⟨document, buffered, holds⟩ := fresh
    rw [if_pos dirty]
    exact ⟨document, buffered, fun name inside => same name inside ▸ holds name inside⟩
  · rename_i idle
    rw [if_neg idle]
    exact fresh

/-- A refresh that succeeds leaves a file that is alone with its id as it is, or with a fresh
document. -/
theorem refreshAll_of_alone {earlier later : List StoreFile} (reached : registry.Reached)
    (ids : ∀ other ∈ earlier, file.id ≠ other.id)
    (plain : m.Plain (namesOfAll registry (earlier ++ file :: later)))
    (done : ∃ isNew, (refreshAll registry (earlier ++ file :: later) m).2.2 = .ok isNew) :
    ∃ earlier' file' later',
      (refreshAll registry (earlier ++ file :: later) m).1 = earlier' ++ file' :: later' ∧
        (earlier' ++ later').map (·.bare) = (earlier ++ later).map (·.bare) ∧
        IsRefreshed registry m file file' := by
  have names : namesOfAll registry (earlier ++ file :: later) =
      namesOfAll registry earlier ++ namesOfAll registry (file :: later) := List.flatMap_append
  rw [names] at plain
  have plainEarlier : m.Plain (namesOfAll registry earlier) :=
    fun name inside => plain name (List.mem_append_left _ inside)
  have served := served_refreshAll plainEarlier
  -- nobody who is served for an earlier file belongs to this one
  have same : ∀ name ∈ registry.namesOf file.id,
      (refreshAll registry earlier m).2.1.provider name = m.provider name := by
    intro name inside
    refine served.other name fun elsewhere => ?_
    obtain ⟨other, there, inside'⟩ := List.mem_flatMap.1 elsewhere
    exact not_mem_namesOf reached (ids other there) inside inside'
  have plainHere : (refreshAll registry earlier m).2.1.Plain (registry.namesOf file.id) := by
    intro name inside
    rw [same name inside]
    exact plain_head (fun name inside => plain name (List.mem_append_right _ inside)) name inside
  obtain ⟨second, files⟩ := refreshAll_append_ok done
  obtain ⟨⟨file', isNew⟩, m₁, run, -⟩ := refreshAll_cons_ok second
  refine ⟨(refreshAll registry earlier m).1, file', (refreshAll registry later m₁).1, ?_, ?_,
    (isRefreshed_of_refresh plainHere run).congr same⟩
  · rw [files, refreshAll_cons, run]
  · rw [List.map_append, List.map_append, bare_refreshAll, bare_refreshAll]

/-! ### Committing -/

/-- A commit that succeeds puts the newest content of a file in place that is alone there. -/
theorem content?_commitAll_of_alone {policy : FailedWritePolicy} {earlier later : List StoreFile}
    {disk : Disk} (apart : ∀ other ∈ earlier ++ later, disk.files.Apart other.path file.path)
    (done : (commitAll policy (earlier ++ file :: later) disk).2.2 = none) :
    (commitAll policy (earlier ++ file :: later) disk).2.1.files.content? file.path =
      file.newest? disk := by
  obtain ⟨before, behind⟩ := List.forall_mem_append.1 apart
  rw [commitAll_append] at done ⊢
  simp only [Option.orElse_eq_orElse, Option.orElse_eq_or, Option.or_eq_none_iff] at done
  obtain ⟨here, -⟩ := commitAll_cons_fault done.2
  simp only [commitAll_cons]
  generalize moved : (commitAll policy earlier disk).2.1 = disk₁ at here ⊢
  have directories : SameDirectories disk.files disk₁.files :=
    moved ▸ sameDirectories_commitAll policy earlier disk
  have directories' := directories.trans (StoreFile.sameDirectories_commit file policy disk₁)
  calc (commitAll policy later (file.commit policy disk₁).disk).2.1.files.content? file.path
      = (file.commit policy disk₁).disk.files.content? file.path :=
        content?_commitAll_of_apart fun other there => (behind other there).congr directories'
    _ = file.newest? disk₁ := StoreFile.content?_commit here
    _ = file.newest? disk := by
        rw [StoreFile.newest?, ← moved, content?_commitAll_of_apart before]
        rfl

/-! ### The next write -/

/-- A forced write that succeeds brings a file without a buffer up to date if its providers have new
data. Otherwise it leaves what is on disk. -/
theorem covers_committed_iff {h : Holdings Memory} (reached : h.registry.Reached)
    (plain : h.providers.Plain (namesOfAll h.registry h.files))
    (alone : IsAlone h.disk.files h.files file) (empty : file.pending = none)
    (refreshed : ∃ isNew, h.refreshResult = .ok isNew)
    (committed : h.refreshed.commitFault = none) :
    h.refreshed.committed.Covers file ↔
      h.registry.hasNewData file.id h.providers = true ∨ h.Covers file := by
  obtain ⟨earlier, later, split, others⟩ := alone
  have ids : ∀ other ∈ earlier, file.id ≠ other.id :=
    fun other there => (others other (List.mem_append_left _ there)).1
  rw [split] at plain
  obtain ⟨earlier', file', later', files, same, fresh⟩ :=
    refreshAll_of_alone reached ids plain (by rwa [refreshResult, split] at refreshed)
  have path : file'.path = file.path := StoreFile.path_eq_of_bare fresh.bare
  have apart : ∀ other ∈ earlier' ++ later', h.disk.files.Apart other.path file'.path := by
    intro other there
    have moved : other.bare ∈ (earlier ++ later).map (·.bare) := same ▸ List.mem_map_of_mem there
    obtain ⟨original, here, same'⟩ := List.mem_map.1 moved
    rw [path, ← StoreFile.path_eq_of_bare same']
    exact (others original here).2
  have files : h.refreshed.files = earlier' ++ file' :: later' := by
    show (refreshAll h.registry h.files h.providers).1 = _
    rw [split, files]
  have content : h.refreshed.committed.disk.files.content? file.path = file'.newest? h.disk := by
    show (commitAll h.policy h.refreshed.files h.disk).2.1.files.content? file.path = _
    have done : (commitAll h.policy h.refreshed.files h.disk).2.2 = none := committed
    rw [files] at done ⊢
    rw [← path]
    exact content?_commitAll_of_alone apart done
  have payload (name : String) : (h.refreshed.committed.providers.provider name).payload =
      (h.providers.provider name).payload := by
    show ((refreshAll h.registry h.files h.providers).2.1.provider name).payload = _
    rw [split]
    exact (served_refreshAll plain).payload name
  have unfolded : h.refreshed.committed.Covers file ↔
      ∃ document, file'.newest? h.disk = some document ∧ ∀ name ∈ h.registry.namesOf file.id,
        Envelope.Holds document name (h.providers.provider name).payload := by
    rw [Covers, content]
    simp only [payload]
    rfl
  rw [unfolded]
  rw [IsRefreshed] at fresh
  split at fresh
  · rename_i new
    obtain ⟨document, rfl, holds⟩ := fresh
    exact ⟨fun _ => .inl new, fun _ => ⟨document, rfl, holds⟩⟩
  · rename_i idle
    rw [fresh, StoreFile.newest?, empty]
    exact ⟨.inr, fun covered => covered.resolve_left idle⟩

/-! ### What runs keep -/

section Runs

variable {W : Type} [ProviderHost W]

/-- What is done with failed writes never changes, and the registry changes only by registering. -/
theorem policy_registry_after (operation : Operation W) (s : Store W) :
    (after operation.run s).config.policy = s.config.policy ∧
      ((after operation.run s).registry = s.registry ∨
        ∃ name file, operation = .register name file) := by
  have keeps {t : Store W} (kept : Keeps s.holdings t.holdings) :
      t.config.policy = s.config.policy ∧
        (t.registry = s.registry ∨ ∃ name file, operation = .register name file) :=
    ⟨kept.policy, .inl kept.registry⟩
  cases operation with
  | register name file =>
    refine ⟨?_, .inr ⟨name, file, rfl⟩⟩
    show (after (register name file) s).config.policy = _
    unfold after register
    cases s.registry.register name file <;> rfl
  | change f => exact ⟨rfl, .inl rfl⟩
  | device f => exact ⟨rfl, .inl rfl⟩
  | write force => exact keeps (keeps_write force s)
  | read =>
    have moved := holdings_read s
    exact ⟨congrArg Holdings.policy moved, .inl (congrArg Holdings.registry moved)⟩
  | fire =>
    have same := holdings_fireOldest s
    exact ⟨congrArg Holdings.policy same, .inl (congrArg Holdings.registry same)⟩
  | deliver id => exact keeps (keeps_onAlarm id s)
  | install files unbuffered => exact ⟨rfl, .inl rfl⟩
  | switch files unbuffered =>
    have left := keeps_leaveUserFiles s
    show (after (switchUserFiles files) s).config.policy = _ ∧ _
    rw [Operation.run]
    rcases after_switchUserFiles_cases files s with same | ⟨providers, clock, metrics, same⟩ <;>
      rw [same]
    · exact keeps left
    · exact ⟨left.policy, .inl left.registry⟩

end Runs

/-- Failed writes are discarded, and the registry is one that is reached by registering. -/
structure Governed (s : Store Memory) : Prop where
  discards : s.config.policy = .discard
  reached : s.registry.Reached

theorem governed_after (operation : Operation Memory) {s : Store Memory} (governed : Governed s) :
    Governed (after operation.run s) := by
  obtain ⟨policy, registry⟩ := policy_registry_after operation s
  refine ⟨policy.trans governed.discards, ?_⟩
  rcases registry with same | ⟨name, file, rfl⟩
  · exact same ▸ governed.reached
  · exact reached_register governed.reached name file

theorem governed_afterAll (operations : List (Operation Memory)) {s : Store Memory}
    (governed : Governed s) : Governed (afterAll operations s) := by
  induction operations generalizing s with
  | nil => exact governed
  | cons operation operations ih => exact ih (governed_after operation governed)

/-! ### After a commit that failed -/

section Failures

variable {W : Type}

/-- The files that a commit cannot put in place, as it leaves them. -/
def unwritten (policy : FailedWritePolicy) : List StoreFile → Disk → List StoreFile
  | [], _ => []
  | file :: rest, disk =>
    let commit := file.commit policy disk
    match commit.result with
    | .ok _ => unwritten policy rest commit.disk
    | .error _ => commit.file :: unwritten policy rest commit.disk

/-- A commit succeeds exactly if it can put all files in place. -/
theorem unwritten_eq_nil_iff {policy : FailedWritePolicy} {files : List StoreFile} {disk : Disk} :
    unwritten policy files disk = [] ↔ (commitAll policy files disk).2.2 = none := by
  induction files generalizing disk with
  | nil => simp [unwritten, commitAll]
  | cons file rest ih =>
    rw [unwritten, commitAll_cons]
    simp only
    cases (file.commit policy disk).result with
    | ok written => exact ih
    | error e => simp

theorem mem_commitAll_of_unwritten {policy : FailedWritePolicy} {files : List StoreFile}
    {disk : Disk} {file : StoreFile} (failed : file ∈ unwritten policy files disk) :
    file ∈ (commitAll policy files disk).1 := by
  induction files generalizing disk with
  | nil => cases failed
  | cons first rest ih =>
    rw [unwritten] at failed
    rw [commitAll_cons]
    split at failed
    · exact List.mem_cons_of_mem _ (ih failed)
    · rcases List.mem_cons.1 failed with rfl | later
      · exact List.mem_cons_self
      · exact List.mem_cons_of_mem _ (ih later)

variable [ProviderHost W]

/-- The holdings that a forced write or an alarm commits, if it comes to that. -/
def Operation.committing? : Operation W → Store W → Option (Holdings W)
  | .write true, s =>
    match s.holdings.refreshResult with
    | .ok _ => some s.holdings.refreshed
    | .error _ => none
  | .deliver id, s => if s.armed = some id then some s.holdings else none
  | _, _ => none

/-- The files that a forced write or an alarm cannot put in place. -/
def Operation.unwritten (operation : Operation W) (s : Store W) : List StoreFile :=
  (operation.committing? s).elim [] fun h => Store.unwritten h.policy h.files h.disk

theorem holdings_of_committing {operation : Operation W} {s : Store W} {h : Holdings W}
    (committing : operation.committing? s = some h) :
    (after operation.run s).holdings = h.committed := by
  cases operation with
  | write force =>
    cases force with
    | false => cases committing
    | true =>
      rw [Operation.committing?] at committing
      cases result : s.holdings.refreshResult with
      | error e => simp [result] at committing
      | ok isNew =>
        simp only [result, Option.some.injEq] at committing
        rw [← committing]
        exact (write_true_of_refresh_ok result).1
  | deliver id =>
    rw [Operation.committing?] at committing
    split at committing
    · rename_i armed
      cases committing
      show (after (onAlarm id) s).holdings = _
      rw [after, onAlarm, if_pos armed]
      exact holdings_commit { s with armed := none }
    · cases committing
  | register | change | device | read | fire | install | switch => cases committing

/-- A file that could not be put in place is still a file of the store. -/
theorem mem_files_of_unwritten {operation : Operation W} {s : Store W} {file : StoreFile}
    (failed : file ∈ operation.unwritten s) : file ∈ (after operation.run s).files := by
  rw [Operation.unwritten] at failed
  cases committing : operation.committing? s with
  | none => simp [committing] at failed
  | some h =>
    rw [committing] at failed
    have files : (after operation.run s).files = h.committed.files :=
      congrArg Holdings.files (holdings_of_committing committing)
    exact files ▸ mem_commitAll_of_unwritten failed

end Failures

/-- If failed writes are discarded, a forced write that succeeds after a forced write or an alarm
that could not put a file in place brings this file up to date exactly if its providers have new
data then, or if the disk holds everything anyway. A forced write that failed has left none of them
with new data. -/
theorem covers_after_failure_iff (config : Config) (discards : config.policy = .discard)
    (shared : StoreFile) (providers : Memory) (disk : Disk) (metrics : Metrics)
    (operations : List (Operation Memory)) (failing : Operation Memory) (change : Memory → Memory)
    (device : Disk → Disk) :
    let s := afterAll operations (.new config shared providers disk metrics)
    let left := after failing.run s
    let t : Store Memory :=
      { left with providers := change left.providers, disk := device left.disk }
    ∀ file ∈ failing.unwritten s, IsAlone t.disk.files t.files file →
      s.providers.Plain (namesOfAll s.registry s.files) →
      t.providers.Plain (namesOfAll t.registry t.files) → Succeeds (write true) t →
      ((after (write true) t).holdings.Covers file ↔
          t.registry.hasNewData file.id t.providers = true ∨ t.holdings.Covers file) ∧
        (failing = .write true → left.registry.hasNewData file.id left.providers = false) := by
  intro s left t file failed alone plain plain' succeeds
  have governed : Governed left :=
    governed_after failing (governed_afterAll operations ⟨discards, .new _ _⟩)
  obtain ⟨h, committing⟩ : ∃ h, failing.committing? s = some h := by
    rw [Operation.unwritten] at failed
    cases committing : failing.committing? s with
    | none => simp [committing] at failed
    | some h => exact ⟨h, rfl⟩
  have moved : left.holdings = h.committed := holdings_of_committing committing
  have here : file ∈ left.files := by
    obtain ⟨earlier, later, split, -⟩ := alone
    exact (show left.files = _ from split) ▸ List.mem_append_right _ List.mem_cons_self
  -- the commit has taken the buffer away
  have empty : file.pending = none := by
    have files : left.files = (commitAll .discard h.files h.disk).1 := by
      have policy : h.policy = .discard :=
        (congrArg Holdings.policy moved).symm.trans governed.discards
      rw [← policy]
      exact congrArg Holdings.files moved
    have nobody := List.any_eq_false.1 (any_hasPending_commitAll h.files h.disk) file (files ▸ here)
    simpa [StoreFile.hasPending] using nobody
  constructor
  · obtain ⟨⟨⟩, t', run⟩ := succeeds
    obtain ⟨refreshed, committed, final⟩ := write_true_eq_ok run
    rw [show after (write true) t = t' by rw [after, run], final]
    exact covers_committed_iff (h := t.holdings) governed.reached plain' alone empty refreshed
      committed
  · rintro rfl
    have refreshed : ∃ isNew, s.holdings.refreshResult = .ok isNew := by
      rw [Operation.committing?] at committing
      cases result : s.holdings.refreshResult with
      | error e => simp [result] at committing
      | ok isNew => exact ⟨isNew, rfl⟩
    have clean := clean_refreshAll plain refreshed
    have keeps := keeps_write true s
    have providers : left.providers = s.holdings.refreshed.providers := providers_write true s
    have registry : left.registry = s.registry := keeps.registry
    rw [registry, providers]
    refine List.any_eq_false.2 fun name inside => ?_
    have marked : (s.holdings.refreshed.providers.provider name).dirty = false :=
      clean name (mem_namesOfAll_of_bare keeps.files here inside)
    simpa [ProviderHost.hasNewData] using marked

/-! ### A directory that comes too late -/

/-- A store with one file, whose directory is absent, and a provider with data for it. -/
def lateShared : Store Memory :=
  .new .default (.new ⟨"later/C.xml"⟩ .sharedGeneral none) Memory.empty (.ofFiles .new) (.new false)

def firstData : List (Operation Memory) :=
  [.register "A" (some .sharedGeneral), .change (·.update "A" (·.set (Utf8.encode ['1'])))]

def withLateDirectory (disk : Disk) : Disk :=
  { disk with files := disk.files.insert ["later"] .directory }

/-- After a forced write the directory is made. What happens to the providers is up to them. -/
def afterLateDirectory (change : Memory → Memory) : Store Memory :=
  let left := after (write true) (afterAll firstData lateShared)
  { left with providers := change left.providers, disk := withLateDirectory left.disk }

theorem isAlone_afterLateDirectory (change : Memory → Memory) {file : StoreFile}
    (here : file ∈ (after (write true) (afterAll firstData lateShared)).files) :
    IsAlone (afterLateDirectory change).disk.files (afterLateDirectory change).files file := by
  have single : ((after (write true) (afterAll firstData lateShared)).users.getD []).isEmpty =
      true := by decide +kernel
  have files : (afterLateDirectory change).files = [(afterLateDirectory change).shared] := by
    show _ :: (after (write true) (afterAll firstData lateShared)).users.getD [] = _
    rw [List.isEmpty_iff.1 single]
  obtain rfl : file = (afterLateDirectory change).shared := List.mem_singleton.1 (files ▸ here)
  exact ⟨[], [], files, by simp⟩

theorem exists_unwritten_firstData :
    ∃ file, file ∈ (Operation.write true).unwritten (afterAll firstData lateShared) ∧
      file ∈ (after (write true) (afterAll firstData lateShared)).files := by
  have some : ((Operation.write true).unwritten (afterAll firstData lateShared)).isEmpty =
      false := by decide +kernel
  obtain ⟨file, failed⟩ := List.exists_mem_of_ne_nil _ (List.isEmpty_eq_false_iff.1 some)
  exact ⟨file, failed, mem_files_of_unwritten failed⟩

def newerData (m : Memory) : Memory :=
  m.update "A" (·.set (Utf8.encode ['2']))

/-- With new data by then, the next write makes up for the failed one. -/
theorem covers_after_failure_newerData :
    ∃ file ∈ (Operation.write true).unwritten (afterAll firstData lateShared),
      Succeeds (write true) (afterLateDirectory newerData) ∧
        (after (write true) (afterLateDirectory newerData)).holdings.Covers file := by
  obtain ⟨file, failed, here⟩ := exists_unwritten_firstData
  have succeeds : Succeeds (write true) (afterLateDirectory newerData) := by decide +kernel
  have plain : ∀ name ∈ namesOfAll (afterAll firstData lateShared).registry
      (afterAll firstData lateShared).files,
      ((afterAll firstData lateShared).providers.provider name).sealing = false := by
    decide +kernel
  have plain' : ∀ name ∈ namesOfAll (afterLateDirectory newerData).registry
      (afterLateDirectory newerData).files,
      ((afterLateDirectory newerData).providers.provider name).sealing = false := by
    decide +kernel
  have new : ∀ file ∈ (after (write true) (afterAll firstData lateShared)).files,
      (afterLateDirectory newerData).registry.hasNewData file.id
        (afterLateDirectory newerData).providers = true := by decide +kernel
  obtain ⟨recovers, -⟩ := covers_after_failure_iff .default rfl lateShared.shared
    lateShared.providers lateShared.disk lateShared.metrics firstData (.write true) newerData
    withLateDirectory file failed (isAlone_afterLateDirectory newerData here) plain plain' succeeds
  exact ⟨file, failed, succeeds, recovers.2 (.inl (new file here))⟩

/-- Without new data, the next write succeeds and the file is still absent. -/
theorem discarded_update_lost :
    lateShared.config.policy = .discard ∧
      ∃ file ∈ (Operation.write true).unwritten (afterAll firstData lateShared),
        Succeeds (write true) (afterLateDirectory id) ∧
          ¬ (after (write true) (afterLateDirectory id)).holdings.Covers file := by
  obtain ⟨file, failed, here⟩ := exists_unwritten_firstData
  have absent : ∀ file ∈ (after (write true) (afterAll firstData lateShared)).files,
      (after (write true) (afterLateDirectory id)).disk.files.content? file.path = none := by
    decide +kernel
  refine ⟨rfl, file, failed, by decide +kernel, ?_⟩
  rintro ⟨document, found, -⟩
  cases (absent file here).symm.trans found

end Store

end SectionStore
