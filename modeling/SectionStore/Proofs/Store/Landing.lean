import SectionStore.Proofs.Store.Refresh

/-!
# Where buffers land

A commit puts the buffer of each file at the target of its path, if it can, and touches nothing else
(`get?_commitAll_of_separate`). So what is found at a location once everything has been committed is
known before: it is what some file has buffered for that place, or what is there already
(`overlay?`). A commit that succeeds turns the overlay into the disk (`get?_commitAll`), and a
refresh puts the documents that it built over it (`overlay?_served`).
-/

namespace SectionStore

open FileSystem

/-- What a commit of the file puts at a location. -/
def StoreFile.lands? (fs : FileSystem) (location : Location) (file : StoreFile) :
    Option ByteArray :=
  if fs.target? file.path = some location then file.pending else none

namespace StoreFile

variable {file : StoreFile} {fs : FileSystem} {location : Location} {disk : Disk}

theorem lands?_of_elsewhere (elsewhere : fs.target? file.path ≠ some location) :
    file.lands? fs location = none :=
  if_neg elsewhere

theorem lands?_congr {old new : FileSystem} (directories : SameDirectories old new)
    (file : StoreFile) : file.lands? new location = file.lands? old location := by
  rw [lands?, lands?, target?_congr directories]

/-- What lands is the document that was built for the file, or else what was buffered before. -/
theorem lands?_served (log : List Serving) :
    (file.served log).lands? fs location =
      ((file.bare.served log).lands? fs location <|> file.lands? fs location) := by
  by_cases here : fs.target? file.path = some location <;> simp [lands?, served, bare, here]

/-- What is found at a location after the commit of one file. -/
theorem get?_commit (policy : FailedWritePolicy)
    (committable : file.pending ≠ none → ∃ location, disk.Allows file.path location) :
    (file.commit policy disk).disk.files.get? location =
      ((file.lands? disk.files location).map (.file · Disk.committedMode) <|>
        disk.files.get? location) := by
  rcases commit_cases file policy disk with
    ⟨empty, same⟩ | ⟨content, buffered, moved, ⟨⟨place, allowed⟩, -⟩ | ⟨hindered, -⟩⟩
  · simp [same, lands?, empty]
  · have replaced := (Disk.replace_of_allows allowed content).2
    rw [moved]
    by_cases here : place = location
    · subst here
      simp [lands?, allowed.target, buffered, replaced.target]
    · simp [lands?, allowed.target, here, replaced.other location (Ne.symm here)]
  · exact absurd (committable (by simp [buffered])) hindered

/-- A buffer that cannot be put in place is put nowhere. -/
theorem get?_commit_of_fails (policy : FailedWritePolicy) (fails : file.fails disk = true) :
    (file.commit policy disk).disk.files.get? location = disk.files.get? location := by
  have hindered : ∀ location, ¬ disk.Allows file.path location := by
    intro location allowed
    rw [fails_eq_false_iff.2 fun _ => ⟨location, allowed⟩] at fails
    cases fails
  rcases commit_cases file policy disk with ⟨-, same⟩ | ⟨content, -, moved, -⟩
  · rw [same]
  · obtain ⟨e, -, same⟩ := Disk.replace_of_not_allows hindered content
    rw [moved, same.get]

end StoreFile

namespace Store

variable {fs : FileSystem} {location : Location} {policy : FailedWritePolicy}
  {files : List StoreFile} {disk : Disk}

/-- What a commit of the files puts at a location. -/
def landing? (fs : FileSystem) (files : List StoreFile) (location : Location) : Option ByteArray :=
  files.findSome? (·.lands? fs location)

/-- What is found at a location once the buffers of the files have been committed. -/
def overlay? (fs : FileSystem) (files : List StoreFile) (location : Location) : Option Entry :=
  (landing? fs files location).map (.file · Disk.committedMode) <|> fs.get? location

theorem landing?_cons (file : StoreFile) (rest : List StoreFile) :
    landing? fs (file :: rest) location =
      (file.lands? fs location <|> landing? fs rest location) := by
  rw [landing?, landing?, List.findSome?_cons]
  cases file.lands? fs location <;> rfl

theorem landing?_congr {old new : FileSystem} (directories : SameDirectories old new)
    (files : List StoreFile) : landing? new files location = landing? old files location := by
  simp only [landing?, StoreFile.lands?_congr directories]

theorem landing?_of_no_pending (empty : ∀ file ∈ files, file.pending = none) :
    landing? fs files location = none := by
  rw [landing?, List.findSome?_eq_none_iff]
  intro file hfile
  rw [StoreFile.lands?, empty file hfile, ite_self]

theorem overlay?_of_no_pending (empty : ∀ file ∈ files, file.pending = none) :
    overlay? fs files location = fs.get? location := by
  rw [overlay?, landing?_of_no_pending empty]
  rfl

/-- No other file is put where a file is put. -/
theorem landing?_of_apart {path : Path} (apart : ∀ other ∈ files, fs.Apart path other.path)
    (target : fs.target? path = some location) : landing? fs files location = none := by
  rw [landing?, List.findSome?_eq_none_iff]
  intro other hother
  exact StoreFile.lands?_of_elsewhere (apart other hother location target)

/-- A commit puts the buffers that it can write where they land, and nothing else anywhere. -/
theorem get?_commitAll_of_separate (separate : Separate disk.files files) :
    (commitAll policy files disk).2.1.files.get? location =
      overlay? disk.files (files.filter fun file => !file.fails disk) location := by
  induction files generalizing disk with
  | nil => rfl
  | cons file rest ih =>
    obtain ⟨apart, separate'⟩ := List.pairwise_cons.1 separate
    have directories := StoreFile.sameDirectories_commit file policy disk
    have device := StoreFile.refuses_commit file policy disk
    rw [commitAll_cons]
    simp only
    rw [ih (Separate.congr directories separate'), overlay?, overlay?, landing?_congr directories]
    simp only [StoreFile.fails_congr directories device, List.filter_cons]
    cases fails : file.fails disk with
    | true =>
      rw [StoreFile.get?_commit_of_fails policy fails]
      rfl
    | false =>
      rw [StoreFile.get?_commit policy (StoreFile.fails_eq_false_iff.1 fails)]
      simp only [Bool.not_false, if_true, landing?_cons]
      by_cases here : disk.files.target? file.path = some location
      · have elsewhere :
            landing? disk.files (rest.filter fun file => !file.fails disk) location = none :=
          landing?_of_apart (fun other hother => (apart other (List.mem_filter.1 hother).1).2) here
        simp [elsewhere]
      · rw [StoreFile.lands?_of_elsewhere here]
        simp

/-- A commit that succeeds puts all the buffers where they land. -/
theorem get?_commitAll (separate : Separate disk.files files)
    (committable : Committable disk files) :
    (commitAll policy files disk).2.1.files.get? location = overlay? disk.files files location := by
  have all : files.filter (fun file => !file.fails disk) = files :=
    List.filter_eq_self.2 fun file hfile => by simp [committable_iff.1 committable file hfile]
  rw [get?_commitAll_of_separate separate, all]

/-- Committing does not change what there will be once everything has been committed. -/
theorem overlay?_commitAll (separate : Separate disk.files files)
    (committable : Committable disk files) :
    overlay? (commitAll policy files disk).2.1.files (commitAll policy files disk).1 location =
      overlay? disk.files files location := by
  rw [overlay?_of_no_pending (pending_commitAll (commitAll_fault_eq_none_iff.2 committable)),
    get?_commitAll separate committable]

/-- Documents that are buffered land in place of what was buffered before. -/
theorem landing?_served (separate : Separate fs files) (log : List Serving) :
    landing? fs (files.map (·.served log)) location =
      (landing? fs (files.map (·.bare.served log)) location <|> landing? fs files location) := by
  induction files with
  | nil => rfl
  | cons file rest ih =>
    obtain ⟨apart, separate'⟩ := List.pairwise_cons.1 separate
    simp only [List.map_cons, landing?_cons, ih separate']
    rw [StoreFile.lands?_served]
    by_cases here : fs.target? file.path = some location
    · have elsewhere : landing? fs (rest.map (·.bare.served log)) location = none := by
        refine landing?_of_apart ?_ here
        intro other hother
        obtain ⟨original, horiginal, rfl⟩ := List.mem_map.1 hother
        exact (apart original horiginal).2
      rw [elsewhere]
      simp [Option.or_assoc]
    · rw [StoreFile.lands?_of_elsewhere here]
      simp [Option.or_assoc]

/-- What a refresh adds to what there will be once everything has been committed. -/
theorem overlay?_served (separate : Separate fs files) (log : List Serving) :
    overlay? fs (files.map (·.served log)) location =
      ((landing? fs (files.map (·.bare.served log)) location).map
          (.file · Disk.committedMode) <|>
        overlay? fs files location) := by
  rw [overlay?, overlay?, landing?_served separate]
  simp [Option.map_or, Option.or_assoc]

end Store

end SectionStore
