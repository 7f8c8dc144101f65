import Mathlib.Data.List.Forall2
import SectionStore.Proofs.Store.Alarms
import SectionStore.Proofs.Store.Debounce

/-!
# Files are committed independently of each other

A commit takes the files one after the other, and each of them finds the device as the earlier ones
have left it (`commits`). What this comes to for a file is seen from the device at the start, as if
the file were the only one (`Outcome`): replacements do not touch directories, and what they put
somewhere is apart from all other files. By induction on the files this holds for each of them
(`outcomes_commits`). The commit as a whole fails if any file does, with the error of the first one
(`commitAll_fault_of_first`). `committed_independently` says so of the operations that commit,
together with the alarm and the time samples.

The paths of two files must not lead to one place, where the later one is written over the earlier
one (`committed_over_each_other`).
-/

namespace SectionStore

open FileSystem

namespace Store

/-- The commits of the files, one after the other. -/
def commits (policy : FailedWritePolicy) : List StoreFile → Disk → List StoreFile.Commit
  | [], _ => []
  | file :: rest, disk =>
    file.commit policy disk :: commits policy rest (file.commit policy disk).disk

/-- What a commit of many files comes to for one of them. -/
inductive Outcome (policy : FailedWritePolicy) (old new : Disk) (file : StoreFile) :
    StoreFile.Commit → Prop where
  /-- There is no buffer, and nothing happens. -/
  | idle {commit : StoreFile.Commit} (empty : file.pending = none)
      (result : commit.result = .ok false) (same : commit.file = file)
      (untouched : new.files.content? file.path = old.files.content? file.path) :
      Outcome policy old new file commit
  /-- The buffer is written and taken away. -/
  | written {commit : StoreFile.Commit} {content : ByteArray}
      (buffered : file.pending = some content) (possible : file.fails old = false)
      (result : commit.result = .ok true) (emptied : commit.file = file.bare)
      (present : new.files.content? file.path = some content) :
      Outcome policy old new file commit
  /-- The buffer cannot be written. What becomes of it depends on the policy. -/
  | failed {commit : StoreFile.Commit} {e : FileError} (fails : file.fails old = true)
      (result : commit.result = .error e)
      (kept : commit.file = if policy = .retain then file else file.bare)
      (untouched : new.files.content? file.path = old.files.content? file.path) :
      Outcome policy old new file commit

variable {policy : FailedWritePolicy} {file : StoreFile} {files earlier later : List StoreFile}
  {disk old new : Disk}

/-! ### Each file -/

/-- What a commit of a file alone comes to. -/
theorem outcome_commit (policy : FailedWritePolicy) (file : StoreFile) (disk : Disk) :
    Outcome policy disk (file.commit policy disk).disk file (file.commit policy disk) := by
  rcases StoreFile.commit_cases file policy disk with
    ⟨empty, same⟩ | ⟨content, buffered, moved, written⟩
  · rw [same]
    exact .idle empty rfl rfl rfl
  rcases written with ⟨allowed, put, done, emptied⟩ | ⟨hindered, ⟨e, failed⟩, kept⟩
  · refine .written buffered (StoreFile.fails_eq_false_iff.2 fun _ => allowed) done emptied ?_
    rw [moved, Disk.content?_of_replace_ok put]
  · have fails : file.fails disk = true := by
      rw [← Bool.not_eq_false, StoreFile.fails_eq_false_iff]
      exact fun allowed => hindered (allowed (by simp [buffered]))
    refine .failed fails failed kept ?_
    obtain ⟨e', -, same⟩ :=
      Disk.replace_of_not_allows (fun location allowed => hindered ⟨location, allowed⟩) content
    rw [moved, Disk.content?_of_same same]

/-- What is done to other files, before or after, makes no difference to a file. -/
theorem Outcome.congr {old' new' : Disk} {commit : StoreFile.Commit}
    (outcome : Outcome policy old new file commit)
    (fails : file.fails old' = file.fails old)
    (started : old.files.content? file.path = old'.files.content? file.path)
    (ended : new'.files.content? file.path = new.files.content? file.path) :
    Outcome policy old' new' file commit := by
  cases outcome with
  | idle empty result same untouched =>
    exact .idle empty result same (ended.trans (untouched.trans started))
  | written buffered possible result emptied present =>
    exact .written buffered (fails.trans possible) result emptied (ended.trans present)
  | failed fails' result kept untouched =>
    exact .failed (fails.trans fails') result kept (ended.trans (untouched.trans started))

/-! ### All files -/

theorem files_commitAll_eq_commits (policy : FailedWritePolicy) (files : List StoreFile)
    (disk : Disk) : (commitAll policy files disk).1 = (commits policy files disk).map (·.file) := by
  induction files generalizing disk with
  | nil => rfl
  | cons file rest ih =>
    rw [commitAll_cons, commits, List.map_cons]
    exact congrArg _ (ih _)

/-- Each file has its own outcome. The commits may begin on any device on which nothing has been
done yet to these files. -/
theorem outcomes_commits_from (directories : SameDirectories old.files disk.files)
    (device : disk.refuses = old.refuses)
    (started : ∀ file ∈ files, disk.files.content? file.path = old.files.content? file.path)
    (separate : Separate disk.files files) :
    List.Forall₂ (Outcome policy old (commitAll policy files disk).2.1) files
      (commits policy files disk) := by
  induction files generalizing disk with
  | nil => exact .nil
  | cons file rest ih =>
    obtain ⟨apart, separate'⟩ := List.pairwise_cons.1 separate
    obtain ⟨here, there⟩ := List.forall_mem_cons.1 started
    have directories' := StoreFile.sameDirectories_commit file policy disk
    have device' := (StoreFile.refuses_commit file policy disk).trans device
    rw [commitAll_cons, commits]
    refine .cons ?_
      (ih (directories.trans directories') device' ?_ (Separate.congr directories' separate'))
    · -- the later commits leave the file alone
      refine (outcome_commit policy file disk).congr
        (StoreFile.fails_congr directories device file).symm here (content?_commitAll_of_apart ?_)
      exact fun other behind => ((apart other behind).2.congr directories').symm
    · -- this commit leaves the later files alone
      exact fun other behind =>
        (StoreFile.content?_commit_of_apart (apart other behind).2).trans (there other behind)

theorem outcomes_commits (separate : Separate disk.files files) :
    List.Forall₂ (Outcome policy disk (commitAll policy files disk).2.1) files
      (commits policy files disk) :=
  outcomes_commits_from .rfl rfl (fun _ _ => rfl) separate

/-- A commit fails with the error of the first file that fails. -/
theorem commitAll_fault_of_first (first : ∀ other ∈ earlier, other.fails disk = false)
    (fails : file.fails disk = true) :
    ∃ e, (file.commit policy (commitAll policy earlier disk).2.1).result = .error e ∧
      (commitAll policy (earlier ++ file :: later) disk).2.2 = some e := by
  have none : (commitAll policy earlier disk).2.2 = none :=
    commitAll_fault_eq_none_iff.2 (committable_iff.2 first)
  rw [← StoreFile.fails_congr (sameDirectories_commitAll policy earlier disk)
    (refuses_commitAll policy earlier disk)] at fails
  rw [commitAll_append]
  simp only [none, commitAll_cons]
  cases outcome_commit policy file (commitAll policy earlier disk).2.1 with
  | idle empty => simp [StoreFile.fails, empty] at fails
  | written _ possible => simp [possible] at fails
  | failed _ result =>
    refine ⟨_, result, ?_⟩
    rw [result]
    rfl

/-! ### The store -/

variable {W : Type} {s s' t : Store W} {fault : Option FileError}

/-- A sample is taken of a commit that succeeds, and of no other. -/
theorem metrics_commit (s : Store W) :
    (after commit s).metrics = match s.holdings.commitFault with
      | some _ => s.metrics
      | none => s.metrics.noteWrite (s.clock.afterReading.now - s.clock.now) := by
  have kept : s.disarm.metrics = s.metrics := by
    unfold disarm
    split <;> rfl
  obtain ⟨shared, users, disk, same⟩ := committed_eq s
  rw [after, commit_eq, same, ← kept]
  cases s.holdings.commitFault <;> rfl

/-- How the store `s` commits the given files, with `t` left behind. -/
structure CommitsApart (s : Store W) (files : List StoreFile) (t : Store W)
    (fault : Option FileError) : Prop where
  /-- Every file is attempted, and has the outcome that it would have alone. -/
  outcomes : List.Forall₂ (Outcome s.config.policy s.disk t.disk) files
    (commits s.config.policy files s.disk)
  installed : t.files = (commits s.config.policy files s.disk).map (·.file)
  /-- What can be written is found where it lands, and everything else is as it was. -/
  landed : ∀ location, t.disk.files.get? location =
    overlay? s.disk.files (files.filter fun file => !file.fails s.disk) location
  disarmed : t.armed = none
  succeeds_iff : fault = none ↔ ∀ file ∈ files, file.fails s.disk = false
  /-- The error is the one of the first file that fails. -/
  first : ∀ {earlier file later}, files = earlier ++ file :: later →
    (∀ other ∈ earlier, other.fails s.disk = false) → file.fails s.disk = true →
      ∃ e, (file.commit s.config.policy (commitAll s.config.policy earlier s.disk).2.1).result =
        .error e ∧ fault = some e
  sampled : t.metrics = match fault with
    | some _ => s.metrics
    | none => s.metrics.noteWrite (s.clock.afterReading.now - s.clock.now)

theorem commitsApart_commit (separate : Separate s.disk.files s.files) :
    CommitsApart s s.files (after commit s) s.holdings.commitFault := by
  have moved := holdings_commit s
  have files : (after commit s).files = (commitAll s.config.policy s.files s.disk).1 :=
    congrArg Holdings.files moved
  have disk : (after commit s).disk = (commitAll s.config.policy s.files s.disk).2.1 :=
    congrArg Holdings.disk moved
  constructor
  case outcomes =>
    rw [disk]
    exact outcomes_commits separate
  case installed => rw [files, files_commitAll_eq_commits]
  case landed =>
    intro location
    rw [disk]
    exact get?_commitAll_of_separate separate
  case disarmed => exact (timing_commit s).1.trans (armed_disarm s)
  case succeeds_iff => exact commitAll_fault_eq_none_iff.trans committable_iff
  case first =>
    intro earlier file later split first fails
    show ∃ e, _ ∧ (commitAll s.config.policy s.files s.disk).2.2 = some e
    rw [split]
    exact commitAll_fault_of_first first fails
  case sampled => exact metrics_commit s

/-- What has no part in a commit may be different before. -/
theorem CommitsApart.congr (apart : CommitsApart s' files t fault) (config : s'.config = s.config)
    (disk : s'.disk = s.disk) (clock : s'.clock = s.clock) (metrics : s'.metrics = s.metrics) :
    CommitsApart s files t fault := by
  obtain ⟨outcomes, installed, landed, disarmed, succeeds_iff, first, sampled⟩ := apart
  rw [config, disk] at outcomes first
  rw [config, disk] at installed
  rw [clock, metrics] at sampled
  simp only [disk] at landed succeeds_iff
  exact ⟨outcomes, installed, landed, disarmed, succeeds_iff, first, sampled⟩

/-- A commit with what it leaves behind. -/
theorem commit_eq_after (s : Store W) :
    commit s = match s.holdings.commitFault with
      | some e => .error (.file e) (after commit s)
      | none => .ok () (after commit s) := by
  rw [after, commit_eq]
  cases s.holdings.commitFault <;> rfl

/-- The files of a store are committed independently of each other, whether the alarm has gone off
or a forced write comes to a commit of what it has refreshed. -/
theorem committed_independently [ProviderHost W] (separate : Separate s.disk.files s.files) :
    (∀ id, s.armed = some id → ∃ t fault,
      onAlarm id s = (match fault with
        | some e => .error (.file e) t
        | none => .ok () t) ∧
      CommitsApart s s.files t fault) ∧
    ((Act.write true).attempts s = 1 → ∃ t fault,
      write true s = (match fault with
        | some e => .error (.file e) t
        | none => .ok () t) ∧
      CommitsApart s s.refreshed.files t fault) := by
  constructor
  · intro id armed
    have run : onAlarm id s = commit { s with armed := none } := if_pos armed
    have apart : CommitsApart { s with armed := none } s.files _ _ := commitsApart_commit separate
    exact ⟨_, _, run.trans (commit_eq_after _), apart.congr rfl rfl rfl rfl⟩
  · intro due
    have run : write true s = commit s.refreshed := by
      rcases write_true_attempts s with ⟨-, run⟩ | ⟨none, -⟩ | ⟨none, -⟩
      · exact run
      · cases due.symm.trans none
      · cases due.symm.trans none
    refine ⟨_, _, run.trans (commit_eq_after _), ?_⟩
    have refreshed := holdings_refreshed s
    have disk : s.refreshed.disk = s.disk := congrArg Holdings.disk refreshed
    have separate' : Separate s.refreshed.disk.files s.refreshed.files := by
      have files : s.refreshed.files = s.holdings.refreshed.files :=
        congrArg Holdings.files refreshed
      rw [disk, files]
      exact Holdings.separate_of_bare (Holdings.keeps_refreshed s.holdings).files separate
    obtain ⟨shared, users, providers, same⟩ := refreshed_eq s
    refine (commitsApart_commit separate').congr ?_ disk ?_ ?_ <;> rw [same]

/-! ### Two files, one of which cannot be written -/

/-- A store in which the shared file and a user file have buffers that wait for the alarm. -/
def bothBuffered (user : Path) : Store Memory :=
  after (runAll [setData "A" ['1'], .write false, setData "U" ['2'], .write false])
    (shareAndUser user)

/-- There is no directory for the user file. -/
theorem committed_independently_withoutDirectory :
    let s := bothBuffered ⟨"later/u.xml"⟩
    Separate s.disk.files s.files ∧ s.armed = some 1 ∧ (Act.write true).attempts s = 1 ∧
      (∃ t e, onAlarm 1 s = .error (.file e) t ∧ CommitsApart s s.files t (some e)) ∧
      ∃ t e, write true s = .error (.file e) t ∧ CommitsApart s s.refreshed.files t (some e) := by
  intro s
  have separate : Separate s.disk.files s.files := by decide +kernel
  have armed : s.armed = some 1 := by decide +kernel
  have due : (Act.write true).attempts s = 1 := by decide +kernel
  obtain ⟨alarm, forced⟩ := committed_independently separate
  obtain ⟨t, fault, run, apart⟩ := alarm 1 armed
  obtain ⟨t', fault', run', apart'⟩ := forced due
  have fails : ∃ file ∈ s.files, file.fails s.disk = true := by decide +kernel
  have fails' : ∃ file ∈ s.refreshed.files, file.fails s.disk = true := by decide +kernel
  refine ⟨separate, armed, due, ?_, ?_⟩
  · cases fault with
    | none =>
      obtain ⟨file, inside, fails⟩ := fails
      simp [apart.succeeds_iff.1 rfl file inside] at fails
    | some e => exact ⟨t, e, run, apart⟩
  · cases fault' with
    | none =>
      obtain ⟨file, inside, fails⟩ := fails'
      simp [apart'.succeeds_iff.1 rfl file inside] at fails
    | some e => exact ⟨t', e, run', apart'⟩

/-- Two spellings of one place: nothing fails, and yet the bytes of the shared file are lost, since
those of the user file are committed over them. -/
theorem committed_over_each_other :
    let s := bothBuffered ⟨"./s.xml"⟩
    (s.files.map (·.path)).Nodup ∧
      (∀ file ∈ s.files, file.pending ≠ none ∧ file.fails s.disk = false) ∧
      s.armed = some 1 ∧ Succeeds (onAlarm 1) s ∧
      ∃ file ∈ s.files,
        (after (onAlarm 1) s).disk.files.content? file.path ≠ file.pending := by
  intro s
  refine ⟨by decide +kernel, by decide +kernel, by decide +kernel, by decide +kernel, s.shared,
    List.mem_cons_self, ?_⟩
  decide +kernel

end Store

end SectionStore
