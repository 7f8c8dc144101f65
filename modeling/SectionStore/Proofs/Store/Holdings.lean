import SectionStore.Proofs.Running
import SectionStore.Proofs.Store.Refresh

/-!
# What the operations of a store do to its data

The holdings of a store are the parts that hold data: the providers, the buffers of the files, and
the disk. An operation refreshes the buffers (`Holdings.refreshed`), commits them
(`Holdings.committed`), or does one after the other; the alarm and the clock only say when. So
invariants of the data are proved of these two, and follow for `write`, `onAlarm` and `commit`.
`write_eq_refreshed` and `commit_eq` are the equations of these operations for the whole store.
-/

namespace SectionStore

/-- The parts of a store that hold data, with those that say where it belongs. -/
structure Holdings (W : Type) where
  policy : FailedWritePolicy
  registry : Registry
  providers : W
  files : List StoreFile
  disk : Disk

namespace Holdings

variable {W : Type}

/-- The holdings after a commit. -/
def committed (h : Holdings W) : Holdings W :=
  { h with
    files := (Store.commitAll h.policy h.files h.disk).1
    disk := (Store.commitAll h.policy h.files h.disk).2.1 }

/-- The first failure of a commit. -/
def commitFault (h : Holdings W) : Option FileError :=
  (Store.commitAll h.policy h.files h.disk).2.2

variable [ProviderHost W]

/-- The holdings after a refresh. -/
def refreshed (h : Holdings W) : Holdings W :=
  { h with
    files := (Store.refreshAll h.registry h.files h.providers).1
    providers := (Store.refreshAll h.registry h.files h.providers).2.1 }

/-- Whether a refresh finds new data, or its failure. -/
def refreshResult (h : Holdings W) : Except RegistryError Bool :=
  (Store.refreshAll h.registry h.files h.providers).2.2

/-- The attempts that a refresh comes to. -/
def servings (h : Holdings W) : List Serving :=
  Store.servings h.registry h.files h.providers

end Holdings

namespace Store

variable {W A : Type}

def holdings (s : Store W A) : Holdings W :=
  ⟨s.config.policy, s.registry, s.providers, s.files, s.disk⟩

/-- The store that an operation leaves behind, whether it succeeds or fails. -/
def after {α : Type} (op : StoreM W A α) (s : Store W A) : Store W A :=
  match op s with
  | .ok _ s' => s'
  | .error _ s' => s'

/-- Does an operation succeed? -/
def Succeeds {α : Type} (op : StoreM W A α) (s : Store W A) : Prop :=
  ∃ a s', op s = .ok a s'

instance decidableSucceeds {α : Type} (op : StoreM W A α) (s : Store W A) :
    Decidable (Succeeds op s) :=
  match run : op s with
  | .ok a s' => .isTrue ⟨a, s', run⟩
  | .error _ _ => .isFalse fun ⟨_, _, run'⟩ => by
    rw [run] at run'
    cases run'

@[simp] theorem holdings_afterClock (s : Store W A) : s.afterClock.holdings = s.holdings :=
  rfl

@[simp] theorem holdings_sampled (s : Store W A) (note : Metrics → Nat → Metrics) (began : Nat) :
    (s.sampled note began).holdings = s.holdings :=
  rfl

/-- The files of a store can be replaced by as many others. -/
theorem files_setFiles {s : Store W A} {files : List StoreFile}
    (length : files.length = s.files.length) : (s.setFiles files).files = files := by
  cases files with
  | nil => simp [Store.files] at length
  | cons shared users =>
    cases installed : s.users with
    | none =>
      simp only [Store.files, installed, Option.getD_none, List.length_cons, List.length_nil,
        Nat.add_eq_right, List.length_eq_zero_iff] at length
      simp [setFiles, Store.files, installed, length]
    | some old => simp [setFiles, Store.files, installed]

/-- Files are replaced without a change to anything else. -/
theorem setFiles_eq (s : Store W A) (files : List StoreFile) :
    ∃ shared users, s.setFiles files = { s with shared, users } := by
  cases files <;> exact ⟨_, _, rfl⟩

theorem holdings_setFiles {s : Store W A} {files : List StoreFile}
    (length : files.length = s.files.length) :
    (s.setFiles files).holdings = { s.holdings with files } := by
  have set := files_setFiles length
  cases files with
  | nil => simp [Store.files] at length
  | cons shared users =>
    simp only [holdings, set]
    rfl

theorem pending_of_not_hasBuffered {s : Store W A} (empty : s.hasBuffered = false) :
    ∀ file ∈ s.files, file.pending = none := by
  intro file hfile
  have := List.any_eq_false.1 empty file hfile
  simpa [StoreFile.hasPending] using this

/-! ### Committing -/

theorem length_commitAll (policy : FailedWritePolicy) (files : List StoreFile) (disk : Disk) :
    (commitAll policy files disk).1.length = files.length := by
  simpa using congrArg List.length (bare_commitAll policy files disk)

/-- Without buffers a commit does nothing. -/
theorem commitAll_of_no_pending {files : List StoreFile} (policy : FailedWritePolicy) (disk : Disk)
    (empty : ∀ file ∈ files, file.pending = none) :
    commitAll policy files disk = (files, disk, none) := by
  induction files with
  | nil => rfl
  | cons file rest ih =>
    have here : file.commit policy disk = ⟨.ok false, file, disk⟩ := by
      rw [StoreFile.commit, empty file List.mem_cons_self]
    rw [commitAll_cons, here]
    simp only [ih fun other hother => empty other (List.mem_cons_of_mem _ hother)]

section Alarm

variable [AlarmScheduler A]

@[simp] theorem holdings_arm (s : Store W A) : s.arm.holdings = s.holdings := by
  unfold arm
  split <;> rfl

@[simp] theorem holdings_disarm (s : Store W A) : s.disarm.holdings = s.holdings := by
  unfold disarm
  split <;> rfl

theorem clock_disarm (s : Store W A) : s.disarm.clock = s.clock := by
  unfold disarm
  split <;> rfl

/-- The store after a commit, but for the time sample. -/
def committed (s : Store W A) : Store W A :=
  { s.disarm.afterClock.setFiles (commitAll s.config.policy s.files s.disk).1 with
    disk := (commitAll s.config.policy s.files s.disk).2.1 }

/-- A commit disarms and attempts the files. Then it fails, or takes a time sample. -/
theorem commit_eq (s : Store W A) :
    commit s = match s.holdings.commitFault with
      | some e => .error (.file e) s.committed
      | none => .ok () (s.committed.sampled Metrics.noteWrite s.clock.now) := by
  unfold commit committed disarm
  cases s.armed <;> rfl

theorem holdings_committed (s : Store W A) : s.committed.holdings = s.holdings.committed := by
  have kept : s.disarm.afterClock.holdings = s.holdings := by simp
  have moved := holdings_setFiles (s := s.disarm.afterClock)
    ((length_commitAll s.config.policy s.files s.disk).trans
      (congrArg (·.files.length) kept).symm)
  calc s.committed.holdings
      = { (s.disarm.afterClock.setFiles (commitAll s.config.policy s.files s.disk).1).holdings with
          disk := (commitAll s.config.policy s.files s.disk).2.1 } := rfl
    _ = s.holdings.committed := by rw [moved, kept]; rfl

/-- A commit changes the files and the disk, apart from the alarm and the clock. -/
theorem committed_eq (s : Store W A) :
    ∃ shared users disk, s.committed =
      { s.disarm with shared, users, disk, clock := s.clock.afterReading } := by
  obtain ⟨shared, users, same⟩ :=
    setFiles_eq s.disarm.afterClock (commitAll s.config.policy s.files s.disk).1
  refine ⟨shared, users, (commitAll s.config.policy s.files s.disk).2.1, ?_⟩
  rw [committed, same]
  simp only [afterClock, clock_disarm]

theorem holdings_commit (s : Store W A) : (after commit s).holdings = s.holdings.committed := by
  rw [after, commit_eq]
  cases s.holdings.commitFault <;> exact holdings_committed s

theorem succeeds_commit_iff (s : Store W A) : Succeeds commit s ↔ s.holdings.commitFault = none := by
  rw [Succeeds, commit_eq]
  cases s.holdings.commitFault <;> simp

theorem commit_eq_ok {s s' : Store W A} (run : commit s = .ok () s') :
    s.holdings.commitFault = none ∧ s'.holdings = s.holdings.committed := by
  have left := holdings_commit s
  rw [after, run] at left
  exact ⟨(succeeds_commit_iff s).1 ⟨(), s', run⟩, left⟩

/-- An alarm that goes off commits the buffers, or does nothing. -/
theorem holdings_onAlarm (id : AlarmId) (s : Store W A) :
    (after (onAlarm id) s).holdings = s.holdings ∨
      (after (onAlarm id) s).holdings = s.holdings.committed := by
  unfold after onAlarm
  by_cases armed : s.armed = some id
  · right
    rw [if_pos armed]
    exact holdings_commit { s with armed := none }
  · left
    rw [if_neg armed]

/-- An alarm that is delivered without a failure found no buffer that could not be committed, if it
did anything. -/
theorem onAlarm_eq_ok {id : AlarmId} {s s' : Store W A} (run : onAlarm id s = .ok () s') :
    s'.holdings = s.holdings ∨
      s.holdings.commitFault = none ∧ s'.holdings = s.holdings.committed := by
  unfold onAlarm at run
  split at run
  · have committed := commit_eq_ok run
    exact .inr committed
  · cases run
    exact .inl rfl

end Alarm

/-- Who goes off is taken out of the pending alarms, and the data stays. -/
theorem holdings_fireOldest (s : Store W) :
    ((s.fireOldest?.map (·.2)).getD s).holdings = s.holdings := by
  unfold fireOldest?
  cases s.alarms.fireOldest? <;> rfl

/-! ### Reading -/

/-- Reading changes the providers, and takes the time. -/
theorem after_timedReading (reading : EStateM StoreError W Unit) (s : Store W A) :
    ∃ providers clock metrics,
      after (timedReading reading) s = { s with providers, clock, metrics } := by
  unfold after timedReading
  simp only [afterClock]
  cases reading s.providers <;> exact ⟨_, _, _, rfl⟩

theorem timedReading_keeps (reading : EStateM StoreError W Unit) (s : Store W A) :
    (after (timedReading reading) s).shared = s.shared ∧
      (after (timedReading reading) s).users = s.users ∧
      (after (timedReading reading) s).disk = s.disk := by
  obtain ⟨providers, clock, metrics, same⟩ := after_timedReading reading s
  rw [same]
  exact ⟨rfl, rfl, rfl⟩

/-- A timed reading succeeds if the reading does, and leaves the providers as the reading does. -/
theorem timedReading_cases (reading : EStateM StoreError W Unit) (s : Store W A) :
    (Succeeds (timedReading reading) s ∧
        reading s.providers = .ok () (after (timedReading reading) s).providers) ∨
      ¬ Succeeds (timedReading reading) s ∧
        ∃ e, reading s.providers = .error e (after (timedReading reading) s).providers := by
  unfold Succeeds after timedReading
  simp only [afterClock]
  cases reading s.providers with
  | ok _ w => exact .inl ⟨⟨(), _, rfl⟩, rfl⟩
  | error e w =>
    refine .inr ⟨?_, e, rfl⟩
    rintro ⟨_, _, run⟩
    cases run

/-- Once the old files have been left, the new ones are installed and read. -/
theorem switchUserFiles_of_left [AlarmScheduler A] [ProviderHost W] {s s' : Store W A}
    (files : List StoreFile) (left : leaveUserFiles s = .ok () s') :
    switchUserFiles files s =
      timedReading (resetAndReadAll s'.registry s'.disk files) (s'.setUserFiles files) := by
  unfold switchUserFiles
  simp only [run_bind, left]
  rfl

/-- To make way for new files, what waits for the alarm is committed. Unless that fails, providers
are reset and the alarm is cancelled. -/
theorem after_leaveUserFiles_cases [AlarmScheduler A] [ProviderHost W] (s : Store W A) :
    ∃ t, (s.isWaiting = false ∧ t = s ∨ s.isWaiting = true ∧ t = after commit s) ∧
      (after leaveUserFiles s = t ∨
        ∃ providers, after leaveUserFiles s = ({ t with providers } : Store W A).disarm) := by
  unfold after leaveUserFiles
  simp only [run_bind, run_get]
  cases s.isWaiting with
  | false => exact ⟨s, .inl ⟨rfl, rfl⟩, .inr ⟨_, rfl⟩⟩
  | true =>
    refine ⟨after commit s, .inr ⟨rfl, rfl⟩, ?_⟩
    simp only [if_true, run_bind, after]
    cases commit s with
    | error e t => exact .inl rfl
    | ok _ t => exact .inr ⟨_, rfl⟩

/-- A switch stops where it cannot make way for the new files, or installs and reads them. -/
theorem after_switchUserFiles_cases [AlarmScheduler A] [ProviderHost W] (files : List StoreFile)
    (s : Store W A) :
    after (switchUserFiles files) s = after leaveUserFiles s ∨
      ∃ providers clock metrics, after (switchUserFiles files) s =
        { (after leaveUserFiles s).setUserFiles files with providers, clock, metrics } := by
  cases left : leaveUserFiles s with
  | error e t =>
    left
    simp only [after, switchUserFiles, run_bind, left]
  | ok _ t =>
    right
    obtain ⟨providers, clock, metrics, same⟩ :=
      after_timedReading (resetAndReadAll t.registry t.disk files) (t.setUserFiles files)
    refine ⟨providers, clock, metrics, ?_⟩
    rw [after, switchUserFiles_of_left files left]
    simp only [after] at same ⊢
    rw [same, left]

/-- Reading changes providers only. -/
theorem holdings_read [ProviderHost W] (s : Store W A) :
    (after read s).holdings = { s.holdings with providers := (after read s).providers } := by
  obtain ⟨providers, clock, metrics, same⟩ :=
    after_timedReading (readAll s.registry s.disk s.files)
      { s with providers := resetAll s.registry s.files s.providers }
  have unfolded : after read s = after (timedReading (readAll s.registry s.disk s.files))
      { s with providers := resetAll s.registry s.files s.providers } := rfl
  rw [unfolded, same]
  rfl

theorem files_read [ProviderHost W] (s : Store W A) :
    (after read s).files = s.files ∧ (after read s).disk = s.disk :=
  ⟨congrArg Holdings.files (holdings_read s), congrArg Holdings.disk (holdings_read s)⟩

/-! ### Writing -/

section Write

variable [ProviderHost W]

theorem length_refreshAll (registry : Registry) (files : List StoreFile) (w : W) :
    (refreshAll registry files w).1.length = files.length := by
  simpa using congrArg List.length (bare_refreshAll registry files w)

/-- The store after a refresh. -/
def refreshed (s : Store W A) : Store W A :=
  { s.setFiles (refreshAll s.registry s.files s.providers).1 with
    providers := (refreshAll s.registry s.files s.providers).2.1 }

theorem holdings_refreshed (s : Store W A) : s.refreshed.holdings = s.holdings.refreshed := by
  have moved := holdings_setFiles (s := s) (length_refreshAll s.registry s.files s.providers)
  calc s.refreshed.holdings
      = { (s.setFiles (refreshAll s.registry s.files s.providers).1).holdings with
          providers := (refreshAll s.registry s.files s.providers).2.1 } := rfl
    _ = s.holdings.refreshed := by rw [moved]; rfl

/-- A refresh changes the files and the providers only. -/
theorem refreshed_eq (s : Store W A) :
    ∃ shared users providers, s.refreshed = { s with shared, users, providers } := by
  obtain ⟨shared, users, same⟩ := setFiles_eq s (refreshAll s.registry s.files s.providers).1
  exact ⟨shared, users, _, by rw [refreshed, same]⟩

theorem armed_refreshed (s : Store W A) : s.refreshed.armed = s.armed := by
  obtain ⟨shared, users, providers, same⟩ := refreshed_eq s
  rw [same]

section Alarm

variable [AlarmScheduler A]

/-- A write refreshes, and then fails, commits, sets the alarm or does nothing more. -/
theorem write_eq_refreshed (force : Bool) (s : Store W A) :
    write force s = match s.holdings.refreshResult with
      | .error e => .error (.registry e) s.refreshed
      | .ok isNew =>
        if force then
          if isNew || s.refreshed.isWaiting || s.refreshed.hasBuffered then commit s.refreshed
          else .ok () s.refreshed
        else .ok () (if isNew then s.refreshed.arm else s.refreshed) :=
  rfl

theorem write_eq (force : Bool) (s : Store W A) :
    ∃ t : Store W A, t.holdings = s.holdings.refreshed ∧
      (t.armed = s.armed ∧ t.alarms = s.alarms) ∧
      write force s = match s.holdings.refreshResult with
        | .error e => .error (.registry e) t
        | .ok isNew =>
          if force then
            if isNew || t.isWaiting || t.hasBuffered then commit t else .ok () t
          else .ok () (if isNew then t.arm else t) := by
  refine ⟨s.refreshed, holdings_refreshed s, ?_, write_eq_refreshed force s⟩
  obtain ⟨shared, users, providers, same⟩ := refreshed_eq s
  rw [same]
  exact ⟨rfl, rfl⟩

/-- What a write comes to. A forced write commits after every refresh that succeeds; if nothing is
buffered then, this is no difference. -/
theorem write_cases (force : Bool) (s : Store W A) :
    ∃ t : Store W A, t.holdings = s.holdings.refreshed ∧
      ((∃ e, s.holdings.refreshResult = .error e ∧ write force s = .error (.registry e) t) ∨
        (∃ isNew, s.holdings.refreshResult = .ok isNew) ∧
          (force = false ∧ write force s = .ok () t ∨
            force = true ∧ write force s = commit t ∨
            force = true ∧ t.hasBuffered = false ∧ write force s = .ok () t)) := by
  obtain ⟨t, target, -, run⟩ := write_eq force s
  rw [run]
  cases s.holdings.refreshResult with
  | error e => exact ⟨t, target, .inl ⟨e, rfl, rfl⟩⟩
  | ok isNew =>
    simp only
    cases force with
    | false =>
      refine ⟨if isNew then t.arm else t, ?_, .inr ⟨⟨isNew, rfl⟩, .inl ⟨rfl, rfl⟩⟩⟩
      split
      · rw [holdings_arm, target]
      · exact target
    | true =>
      refine ⟨t, target, .inr ⟨⟨isNew, rfl⟩, .inr ?_⟩⟩
      by_cases due : (isNew || t.isWaiting || t.hasBuffered) = true
      · left
        simp [due]
      · right
        simp only [Bool.or_eq_true, not_or, Bool.not_eq_true] at due
        simp [due]

/-- A write that fails to refresh leaves the disk alone. -/
theorem write_of_refresh_error (force : Bool) {s : Store W A} {e : RegistryError}
    (failed : s.holdings.refreshResult = .error e) :
    ¬ Succeeds (write force) s ∧ (after (write force) s).holdings = s.holdings.refreshed := by
  obtain ⟨t, ht, ⟨e', -, run⟩ | ⟨⟨isNew, ok⟩, -⟩⟩ := write_cases force s
  · refine ⟨?_, by rw [after, run]; exact ht⟩
    rintro ⟨_, s', run'⟩
    rw [run] at run'
    cases run'
  · rw [failed] at ok
    cases ok

/-- A buffered write refreshes. -/
theorem holdings_write_false (s : Store W A) :
    (after (write false) s).holdings = s.holdings.refreshed := by
  obtain ⟨t, ht, ⟨e, -, run⟩ | ⟨-, ⟨-, run⟩ | ⟨force, -⟩ | ⟨force, -⟩⟩⟩ := write_cases false s
  · rw [after, run]
    exact ht
  · rw [after, run]
    exact ht
  · cases force
  · cases force

/-- A forced write refreshes and, if that succeeds, commits. -/
theorem write_true_of_refresh_ok {s : Store W A} {isNew : Bool}
    (done : s.holdings.refreshResult = .ok isNew) :
    (after (write true) s).holdings = s.holdings.refreshed.committed ∧
      (Succeeds (write true) s ↔ s.holdings.refreshed.commitFault = none) := by
  obtain ⟨t, ht, ⟨e, failed, -⟩ | ⟨-, ⟨force, -⟩ | ⟨-, run⟩ | ⟨-, empty, run⟩⟩⟩ :=
    write_cases true s
  · rw [done] at failed
    cases failed
  · cases force
  · rw [← ht]
    refine ⟨?_, ?_⟩
    · rw [after, run]
      exact holdings_commit t
    · rw [Succeeds, run]
      exact succeeds_commit_iff t
  · have nothing :=
      commitAll_of_no_pending t.config.policy t.disk (pending_of_not_hasBuffered empty)
    rw [← ht]
    refine ⟨?_, ?_⟩
    · rw [after, run]
      exact (congrArg (fun r => { t.holdings with files := r.1, disk := r.2.1 }) nothing).symm
    · rw [Succeeds, run]
      exact ⟨fun _ => congrArg (·.2.2) nothing, fun _ => ⟨(), t, rfl⟩⟩

theorem write_false_eq_ok {s s' : Store W A} (run : write false s = .ok () s') :
    (∃ isNew, s.holdings.refreshResult = .ok isNew) ∧ s'.holdings = s.holdings.refreshed := by
  have moved := holdings_write_false s
  rw [after, run] at moved
  cases result : s.holdings.refreshResult with
  | error e => exact absurd ⟨(), s', run⟩ (write_of_refresh_error false result).1
  | ok isNew => exact ⟨⟨isNew, rfl⟩, moved⟩

theorem write_true_eq_ok {s s' : Store W A} (run : write true s = .ok () s') :
    (∃ isNew, s.holdings.refreshResult = .ok isNew) ∧
      s.holdings.refreshed.commitFault = none ∧ s'.holdings = s.holdings.refreshed.committed := by
  cases result : s.holdings.refreshResult with
  | error e => exact absurd ⟨(), s', run⟩ (write_of_refresh_error true result).1
  | ok isNew =>
    obtain ⟨moved, succeeds⟩ := write_true_of_refresh_ok result
    rw [after, run] at moved
    exact ⟨⟨isNew, rfl⟩, succeeds.1 ⟨(), s', run⟩, moved⟩

/-- A forced write succeeds if it can refresh, and commit what it has then. -/
theorem exists_write_true {s : Store W A} {isNew : Bool}
    (refreshed : s.holdings.refreshResult = .ok isNew)
    (committed : s.holdings.refreshed.commitFault = none) :
    ∃ s', write true s = .ok () s' ∧ s'.holdings = s.holdings.refreshed.committed := by
  obtain ⟨moved, succeeds⟩ := write_true_of_refresh_ok refreshed
  obtain ⟨⟨⟩, s', run⟩ := succeeds.2 committed
  rw [after, run] at moved
  exact ⟨s', run, moved⟩

end Alarm

end Write

end Store

end SectionStore
