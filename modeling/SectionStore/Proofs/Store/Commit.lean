import SectionStore.Store
import SectionStore.Proofs.Disk.Replace

/-!
# What a commit does

The newest content of a file is its buffer, or what is on disk if it has none
(`StoreFile.newest?`). A commit moves contents from buffers to the disk. It loses none of them if
failed writes are retained, or if no write fails (`newest?_commitAll`), and if it succeeds no buffer
is left (`pending_commitAll`). It succeeds if no file fails (`commitAll_fault_eq_none_iff`), which is
decided by the device before it (`StoreFile.fails_congr`). `Disk.Writes` records which contents were
put where; `writes_commitAll` says that these are the buffers, in the order of the files.
-/

namespace SectionStore

open FileSystem

/-- A file apart from its buffer. -/
def StoreFile.bare (file : StoreFile) : StoreFile :=
  { file with pending := none }

theorem StoreFile.path_eq_of_bare {file other : StoreFile} (same : file.bare = other.bare) :
    file.path = other.path :=
  congrArg (·.path) same

theorem StoreFile.id_eq_of_bare {file other : StoreFile} (same : file.bare = other.bare) :
    file.id = other.id :=
  congrArg (·.id) same

/-- The content that a file has, or will have once its buffer is committed. -/
def StoreFile.newest? (file : StoreFile) (disk : Disk) : Option ByteArray :=
  file.pending <|> disk.files.content? file.path

/-- The contents that were put under paths of a device, one after the other. -/
inductive Disk.Writes : Disk → List (Path × ByteArray) → Disk → Prop where
  | nil (disk : Disk) : Writes disk [] disk
  | cons {disk disk' : Disk} {path : Path} {content : ByteArray} {rest : List (Path × ByteArray)}
      (done : (disk.replace path (.whole content)).1 = .ok ())
      (further : Writes (disk.replace path (.whole content)).2 rest disk') :
      Writes disk ((path, content) :: rest) disk'

namespace StoreFile

variable {file : StoreFile} {policy : FailedWritePolicy} {disk : Disk}

/-- Either a failed write keeps its buffer, or no write of the file fails. -/
def Safe (file : StoreFile) (policy : FailedWritePolicy) (disk : Disk) : Prop :=
  policy = .retain ∨ ∃ location, disk.Allows file.path location

/-- What a commit of one file comes to: there is no buffer, or it is put in place, or it cannot be
put there. -/
theorem commit_cases (file : StoreFile) (policy : FailedWritePolicy) (disk : Disk) :
    (file.pending = none ∧ file.commit policy disk = ⟨.ok false, file, disk⟩) ∨
      ∃ content, file.pending = some content ∧
        (file.commit policy disk).disk = (disk.replace file.path (.whole content)).2 ∧
        (((∃ location, disk.Allows file.path location) ∧
            (disk.replace file.path (.whole content)).1 = .ok () ∧
            (file.commit policy disk).result = .ok true ∧
            (file.commit policy disk).file = file.bare) ∨
          (¬ ∃ location, disk.Allows file.path location) ∧
            (∃ e, (file.commit policy disk).result = .error e) ∧
            (file.commit policy disk).file = if policy = .retain then file else file.bare) := by
  unfold commit
  cases buffered : file.pending with
  | none => exact .inl ⟨rfl, rfl⟩
  | some content =>
    refine .inr ⟨content, rfl, ?_⟩
    dsimp only
    rcases Disk.replace_cases disk file.path (.whole content) with
      ⟨e, failed, -, hindered⟩ | ⟨done, -, location, allowed, -⟩
    · have hindered' : ¬ ∃ location, disk.Allows file.path location :=
        fun ⟨location, allowed⟩ => hindered location allowed rfl
      cases run : disk.replace file.path (.whole content) with
      | mk result disk' =>
        obtain rfl : result = .error e := by rwa [run] at failed
        cases policy with
        | discard => exact ⟨rfl, .inr ⟨hindered', ⟨e, rfl⟩, rfl⟩⟩
        | retain => exact ⟨rfl, .inr ⟨hindered', ⟨e, rfl⟩, rfl⟩⟩
    · cases run : disk.replace file.path (.whole content) with
      | mk result disk' =>
        obtain rfl : result = .ok () := by rwa [run] at done
        exact ⟨rfl, .inl ⟨⟨location, allowed⟩, rfl, rfl, rfl⟩⟩

theorem bare_commit (file : StoreFile) (policy : FailedWritePolicy) (disk : Disk) :
    (file.commit policy disk).file.bare = file.bare := by
  rcases commit_cases file policy disk with
    ⟨-, same⟩ | ⟨content, -, -, ⟨-, -, -, same⟩ | ⟨-, -, same⟩⟩
  · rw [same]
  · rw [same]
    rfl
  · rw [same]
    split <;> rfl

/-- The device after a commit: as it was, or after one replacement. -/
theorem commit_disk (file : StoreFile) (policy : FailedWritePolicy) (disk : Disk) :
    (file.commit policy disk).disk = disk ∨
      ∃ content, (file.commit policy disk).disk = (disk.replace file.path (.whole content)).2 := by
  rcases commit_cases file policy disk with ⟨-, same⟩ | ⟨content, -, moved, -⟩
  · rw [same]
    exact .inl rfl
  · exact .inr ⟨content, moved⟩

theorem newest?_commit (safe : file.Safe policy disk) :
    (file.commit policy disk).file.newest? (file.commit policy disk).disk = file.newest? disk := by
  rcases commit_cases file policy disk with
    ⟨-, same⟩ | ⟨content, buffered, moved, ⟨-, done, -, same⟩ | ⟨hindered, -, same⟩⟩
  · rw [same]
  · have found := Disk.content?_of_replace_ok done
    rw [same, moved]
    simp [newest?, bare, buffered, found]
  · rcases safe with rfl | allowed
    · rw [same, if_pos rfl]
      simp [newest?, buffered]
    · exact absurd allowed hindered

theorem pending_commit {written : Bool} (done : (file.commit policy disk).result = .ok written) :
    (file.commit policy disk).file.pending = none := by
  rcases commit_cases file policy disk with
    ⟨empty, same⟩ | ⟨content, -, -, ⟨-, -, -, same⟩ | ⟨-, ⟨e, failed⟩, -⟩⟩
  · rw [same]
    exact empty
  · rw [same]
    rfl
  · rw [failed] at done
    cases done

/-- Right after a commit that succeeds, the newest content of a file is on disk. -/
theorem content?_commit (done : ∃ written, (file.commit policy disk).result = .ok written) :
    (file.commit policy disk).disk.files.content? file.path = file.newest? disk := by
  rcases commit_cases file policy disk with
    ⟨empty, same⟩ | ⟨content, buffered, moved, ⟨-, put, -⟩ | ⟨-, ⟨e, failed⟩, -⟩⟩
  · rw [same, newest?, empty]
    rfl
  · rw [moved, Disk.content?_of_replace_ok put, newest?, buffered]
    rfl
  · obtain ⟨written, done⟩ := done
    rw [failed] at done
    cases done

/-- A commit of a file fails only if there is a buffer that cannot be put in place. -/
theorem result_commit_eq_ok_iff :
    (∃ written, (file.commit policy disk).result = .ok written) ↔
      (file.pending ≠ none → ∃ location, disk.Allows file.path location) := by
  rcases commit_cases file policy disk with
    ⟨empty, same⟩ | ⟨content, buffered, -, ⟨allowed, -, done, -⟩ | ⟨hindered, ⟨e, failed⟩, -⟩⟩
  · rw [same]
    exact ⟨fun _ buffered => absurd empty buffered, fun _ => ⟨false, rfl⟩⟩
  · exact ⟨fun _ _ => allowed, fun _ => ⟨true, done⟩⟩
  · constructor
    · rintro ⟨written, done⟩
      rw [failed] at done
      cases done
    · intro allowed
      exact absurd (allowed (by simp [buffered])) hindered

/-- Is there a buffer that cannot be put in place? -/
def fails (file : StoreFile) (disk : Disk) : Bool :=
  match file.pending with
  | none => false
  | some content => !(disk.replace file.path (.whole content)).1.isOk

theorem fails_eq_false_iff : file.fails disk = false ↔
    (file.pending ≠ none → ∃ location, disk.Allows file.path location) := by
  rw [fails]
  cases buffered : file.pending with
  | none => simp
  | some content =>
    simp only [Bool.not_eq_false', ne_eq, reduceCtorEq, not_false_eq_true, true_implies]
    rcases Disk.replace_cases disk file.path (.whole content) with
      ⟨e, failed, -, hindered⟩ | ⟨done, -, location, allowed, -⟩
    · rw [failed]
      refine ⟨fun ok => (by cases ok), ?_⟩
      rintro ⟨location, allowed⟩
      exact absurd rfl (hindered location allowed)
    · rw [done]
      exact ⟨fun _ => ⟨location, allowed⟩, fun _ => rfl⟩

/-- Whether a buffer can be put in place depends on the directories and the device. -/
theorem fails_congr {other : Disk} (directories : SameDirectories disk.files other.files)
    (device : other.refuses = disk.refuses) (file : StoreFile) :
    file.fails other = file.fails disk := by
  have both : file.fails other = false ↔ file.fails disk = false := by
    rw [fails_eq_false_iff, fails_eq_false_iff]
    constructor <;> intro allowed buffered <;> obtain ⟨location, allowed⟩ := allowed buffered
    · exact ⟨location, allowed.congr directories.symm device.symm⟩
    · exact ⟨location, allowed.congr directories device⟩
  cases here : file.fails disk with
  | false => exact both.2 here
  | true =>
    rw [here] at both
    simpa using both

theorem refuses_commit (file : StoreFile) (policy : FailedWritePolicy) (disk : Disk) :
    (file.commit policy disk).disk.refuses = disk.refuses := by
  rcases commit_disk file policy disk with h | ⟨content, h⟩ <;> rw [h]
  rfl

theorem sameDirectories_commit (file : StoreFile) (policy : FailedWritePolicy) (disk : Disk) :
    SameDirectories disk.files (file.commit policy disk).disk.files := by
  rcases commit_disk file policy disk with h | ⟨content, h⟩ <;> rw [h]
  · exact .rfl
  · exact Disk.sameDirectories_replace disk file.path _

theorem content?_commit_of_apart {path : Path} (apart : disk.files.Apart file.path path) :
    (file.commit policy disk).disk.files.content? path = disk.files.content? path := by
  rcases commit_disk file policy disk with h | ⟨content, h⟩ <;> rw [h]
  exact Disk.content?_replace_of_apart apart content

theorem Safe.congr {other : Disk} {file' : StoreFile} (same : file'.path = file.path)
    (directories : SameDirectories disk.files other.files) (device : other.refuses = disk.refuses)
    (safe : file.Safe policy disk) : file'.Safe policy other := by
  rcases safe with retains | ⟨location, allowed⟩
  · exact .inl retains
  · exact .inr ⟨location, same ▸ allowed.congr directories device⟩

end StoreFile

namespace Store

variable {policy : FailedWritePolicy} {files : List StoreFile} {disk : Disk}

/-- No two of the files have the same path or are put at the same location. -/
def Separate (fs : FileSystem) (files : List StoreFile) : Prop :=
  files.Pairwise fun file other => file.path ≠ other.path ∧ fs.Apart file.path other.path

instance decidableSeparate (fs : FileSystem) (files : List StoreFile) :
    Decidable (Separate fs files) :=
  inferInstanceAs (Decidable (List.Pairwise _ _))

theorem Separate.congr {old new : FileSystem} (directories : SameDirectories old new)
    (separate : Separate old files) : Separate new files :=
  separate.imp fun apart => ⟨apart.1, apart.2.congr directories⟩

/-- What a commit of all files comes to, in terms of the first file and the others. -/
theorem commitAll_cons (policy : FailedWritePolicy) (file : StoreFile) (rest : List StoreFile)
    (disk : Disk) :
    commitAll policy (file :: rest) disk =
      let commit := file.commit policy disk
      let others := commitAll policy rest commit.disk
      (commit.file :: others.1, others.2.1,
        match commit.result with
        | .ok _ => others.2.2
        | .error e => some e) := by
  simp only [commitAll]
  split <;> simp_all

theorem commitAll_append (policy : FailedWritePolicy) (earlier later : List StoreFile)
    (disk : Disk) :
    commitAll policy (earlier ++ later) disk =
      let first := commitAll policy earlier disk
      let second := commitAll policy later first.2.1
      (first.1 ++ second.1, second.2.1, first.2.2 <|> second.2.2) := by
  induction earlier generalizing disk with
  | nil => rfl
  | cons file rest ih =>
    rw [List.cons_append, commitAll_cons, commitAll_cons]
    simp only [ih, List.cons_append]
    cases (file.commit policy disk).result <;> rfl

theorem bare_commitAll (policy : FailedWritePolicy) (files : List StoreFile) (disk : Disk) :
    (commitAll policy files disk).1.map (·.bare) = files.map (·.bare) := by
  induction files generalizing disk with
  | nil => rfl
  | cons file rest ih =>
    rw [commitAll_cons]
    simp only [List.map_cons, StoreFile.bare_commit, ih]

theorem refuses_commitAll (policy : FailedWritePolicy) (files : List StoreFile) (disk : Disk) :
    (commitAll policy files disk).2.1.refuses = disk.refuses := by
  induction files generalizing disk with
  | nil => rfl
  | cons file rest ih =>
    rw [commitAll_cons]
    exact (ih _).trans (StoreFile.refuses_commit file policy disk)

theorem sameDirectories_commitAll (policy : FailedWritePolicy) (files : List StoreFile)
    (disk : Disk) : SameDirectories disk.files (commitAll policy files disk).2.1.files := by
  induction files generalizing disk with
  | nil => exact .rfl
  | cons file rest ih =>
    rw [commitAll_cons]
    exact (StoreFile.sameDirectories_commit file policy disk).trans (ih _)

theorem content?_commitAll_of_apart {path : Path}
    (apart : ∀ file ∈ files, disk.files.Apart file.path path) :
    (commitAll policy files disk).2.1.files.content? path = disk.files.content? path := by
  induction files generalizing disk with
  | nil => rfl
  | cons file rest ih =>
    rw [commitAll_cons]
    have others : ∀ other ∈ rest, (file.commit policy disk).disk.files.Apart other.path path := by
      intro other hother
      exact (apart other (List.mem_cons_of_mem _ hother)).congr
        (StoreFile.sameDirectories_commit file policy disk)
    exact (ih others).trans
      (StoreFile.content?_commit_of_apart (apart file List.mem_cons_self))

/-- Committing loses no content. -/
theorem newest?_commitAll (separate : Separate disk.files files)
    (safe : ∀ file ∈ files, file.Safe policy disk) {file' : StoreFile}
    (inside : file' ∈ (commitAll policy files disk).1) :
    ∃ file ∈ files, file'.bare = file.bare ∧
      file'.newest? (commitAll policy files disk).2.1 = file.newest? disk := by
  induction files generalizing disk with
  | nil => cases inside
  | cons file rest ih =>
    obtain ⟨apart, separate'⟩ := List.pairwise_cons.1 separate
    have directories := StoreFile.sameDirectories_commit file policy disk
    rw [commitAll_cons] at inside ⊢
    simp only [List.mem_cons] at inside
    rcases inside with rfl | inside
    · refine ⟨file, List.mem_cons_self, StoreFile.bare_commit _ _ _, ?_⟩
      rw [← StoreFile.newest?_commit (safe file List.mem_cons_self)]
      -- the other files are put elsewhere
      have stays : (commitAll policy rest (file.commit policy disk).disk).2.1.files.content?
          file.path = (file.commit policy disk).disk.files.content? file.path :=
        content?_commitAll_of_apart fun other hother =>
          ((apart other hother).2.congr directories).symm
      rw [StoreFile.newest?, StoreFile.newest?,
        StoreFile.path_eq_of_bare (StoreFile.bare_commit file policy disk), stays]
    · obtain ⟨other, hother, same, newest⟩ := ih (Separate.congr directories separate')
        (fun other hother => (safe other (List.mem_cons_of_mem _ hother)).congr rfl directories
          (StoreFile.refuses_commit file policy disk)) inside
      refine ⟨other, List.mem_cons_of_mem _ hother, same, newest.trans ?_⟩
      rw [StoreFile.newest?, StoreFile.newest?,
        StoreFile.content?_commit_of_apart (apart other hother).2]

theorem commitAll_cons_fault {file : StoreFile} {rest : List StoreFile}
    (done : (commitAll policy (file :: rest) disk).2.2 = none) :
    (∃ written, (file.commit policy disk).result = .ok written) ∧
      (commitAll policy rest (file.commit policy disk).disk).2.2 = none := by
  rw [commitAll_cons] at done
  simp only at done
  split at done
  · rename_i written run
    exact ⟨⟨written, run⟩, done⟩
  · cases done

/-- What is done with failed writes makes no difference to a commit that succeeds. -/
theorem commitAll_retain (done : (commitAll policy files disk).2.2 = none) :
    commitAll .retain files disk = commitAll policy files disk := by
  induction files generalizing disk with
  | nil => rfl
  | cons file rest ih =>
    obtain ⟨⟨written, first⟩, others⟩ := commitAll_cons_fault done
    have same : file.commit .retain disk = file.commit policy disk := by
      unfold StoreFile.commit at first ⊢
      cases buffered : file.pending with
      | none => rfl
      | some content =>
        rw [buffered] at first
        simp only at first ⊢
        split at first
        · rfl
        · split at first <;> cases first
    rw [commitAll_cons, commitAll_cons]
    simp only [same, ih others]

/-- A commit that succeeds loses no content. -/
theorem newest?_commitAll_of_ok (separate : Separate disk.files files)
    (done : (commitAll policy files disk).2.2 = none) {file' : StoreFile}
    (inside : file' ∈ (commitAll policy files disk).1) :
    ∃ file ∈ files, file'.bare = file.bare ∧
      file'.newest? (commitAll policy files disk).2.1 = file.newest? disk := by
  rw [← commitAll_retain done] at inside ⊢
  exact newest?_commitAll separate (fun _ _ => .inl rfl) inside

/-- A commit that succeeds leaves no buffer. -/
theorem pending_commitAll (done : (commitAll policy files disk).2.2 = none) :
    ∀ file ∈ (commitAll policy files disk).1, file.pending = none := by
  induction files generalizing disk with
  | nil => simp [commitAll]
  | cons file rest ih =>
    obtain ⟨⟨written, first⟩, others⟩ := commitAll_cons_fault done
    rw [commitAll_cons]
    intro file' inside
    simp only [List.mem_cons] at inside
    rcases inside with rfl | inside
    · exact StoreFile.pending_commit first
    · exact ih others file' inside

theorem map_bare_of_no_pending (empty : ∀ file ∈ files, file.pending = none) :
    files.map (·.bare) = files := by
  have bare : ∀ file ∈ files, file.bare = file := by
    intro file hfile
    rw [StoreFile.bare, ← empty file hfile]
  exact (List.map_congr_left bare).trans (List.map_id' files)

/-- After a commit that succeeds the files are as they were, but for the buffers. -/
theorem files_commitAll (done : (commitAll policy files disk).2.2 = none) :
    (commitAll policy files disk).1 = files.map (·.bare) := by
  rw [← bare_commitAll policy files disk, map_bare_of_no_pending (pending_commitAll done)]

/-- Every file with a buffer can be replaced. -/
def Committable (disk : Disk) (files : List StoreFile) : Prop :=
  ∀ file ∈ files, file.pending ≠ none → ∃ location, disk.Allows file.path location

theorem committable_iff : Committable disk files ↔ ∀ file ∈ files, file.fails disk = false := by
  simp only [Committable, StoreFile.fails_eq_false_iff]

theorem Committable.congr {other : Disk}
    (directories : SameDirectories disk.files other.files) (device : other.refuses = disk.refuses)
    (committable : Committable disk files) : Committable other files := by
  rw [committable_iff] at committable ⊢
  intro file hfile
  rw [StoreFile.fails_congr directories device, committable file hfile]

theorem committable_cons {file : StoreFile} {rest : List StoreFile} :
    Committable disk (file :: rest) ↔
      (file.pending ≠ none → ∃ location, disk.Allows file.path location) ∧
        Committable disk rest :=
  List.forall_mem_cons

/-- A commit succeeds exactly if every file with a buffer can be replaced. -/
theorem commitAll_fault_eq_none_iff :
    (commitAll policy files disk).2.2 = none ↔ Committable disk files := by
  induction files generalizing disk with
  | nil => exact ⟨fun _ _ h => (by cases h), fun _ => rfl⟩
  | cons file rest ih =>
    have directories := StoreFile.sameDirectories_commit file policy disk
    have device := StoreFile.refuses_commit file policy disk
    rw [committable_cons, ← @StoreFile.result_commit_eq_ok_iff file policy disk]
    constructor
    · intro done
      obtain ⟨first, others⟩ := commitAll_cons_fault done
      exact ⟨first, (ih.1 others).congr directories.symm device.symm⟩
    · rintro ⟨⟨written, first⟩, others⟩
      rw [commitAll_cons]
      simp only [first]
      exact ih.2 (others.congr directories device)

/-- The buffers of files, with the paths that they are committed to. -/
def buffers (files : List StoreFile) : List (Path × ByteArray) :=
  files.filterMap fun file => file.pending.map (file.path, ·)

theorem mem_buffers_iff {path : Path} {content : ByteArray} :
    (path, content) ∈ buffers files ↔
      ∃ file ∈ files, file.path = path ∧ file.pending = some content := by
  simp only [buffers, List.mem_filterMap, Option.map_eq_some_iff, Prod.mk.injEq]
  constructor
  · rintro ⟨file, hfile, content', buffered, rfl, rfl⟩
    exact ⟨file, hfile, rfl, buffered⟩
  · rintro ⟨file, hfile, rfl, buffered⟩
    exact ⟨file, hfile, content, buffered, rfl, rfl⟩

/-- A commit that succeeds writes all buffers. -/
theorem writes_commitAll (done : (commitAll policy files disk).2.2 = none) :
    Disk.Writes disk (buffers files) (commitAll policy files disk).2.1 := by
  induction files generalizing disk with
  | nil => exact .nil disk
  | cons file rest ih =>
    obtain ⟨⟨written, first⟩, others⟩ := commitAll_cons_fault done
    have further := ih others
    rw [commitAll_cons]
    simp only
    rcases StoreFile.commit_cases file policy disk with
      ⟨empty, same⟩ | ⟨content, buffered, moved, ⟨-, put, -⟩ | ⟨-, ⟨e, failed⟩, -⟩⟩
    · rw [same] at further ⊢
      simpa [buffers, empty] using further
    · rw [moved] at further ⊢
      have step : Disk.Writes disk ((file.path, content) :: buffers rest) _ := .cons put further
      simpa [buffers, buffered] using step
    · rw [first] at failed
      cases failed

end Store

end SectionStore
