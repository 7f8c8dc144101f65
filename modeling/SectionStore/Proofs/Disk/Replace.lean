import SectionStore.Disk
import SectionStore.Proofs.FileSystem.Target

/-!
# What a replacement does to the files

A replacement works beside the files: up to the renaming, everything but the temporary file is as it
was (`Beside`). It can be completed if the device permits it and the path leads to a place for a
file (`Disk.Allows`); then exactly the target changes (`replace_of_allows`), and otherwise nothing
does (`replace_of_not_allows`). What allows a replacement are directories only, so one replacement
does not stand in the way of another (`Allows.congr`).
-/

namespace SectionStore

open FileSystem

namespace FileSystem

/-- Two file systems that hold the same. -/
structure Same (old new : FileSystem) : Prop where
  here : new.here = old.here
  get : ∀ o, new.get? o = old.get? o

/-- A committed file at one location, and everything else as before. -/
structure Replaced (location : Location) (content : ByteArray) (old new : FileSystem) : Prop where
  here : new.here = old.here
  target : new.get? location = some (.file content Disk.committedMode)
  other : ∀ o, o ≠ location → new.get? o = old.get? o

theorem Same.sameDirectories {old new : FileSystem} (same : Same old new) :
    SameDirectories old new :=
  ⟨same.here, fun l => by rw [same.get]⟩

theorem Same.walk {old new : FileSystem} (same : Same old new) (location : Location)
    (pieces : List String) : new.walk location pieces = old.walk location pieces := by
  induction pieces generalizing location with
  | nil => rw [FileSystem.walk, FileSystem.walk, same.get]
  | cons piece rest ih =>
    rw [FileSystem.walk, FileSystem.walk, same.get]
    simp only [ih]

/-- What is read through a path is decided by what the file system holds. -/
theorem Same.read {old new : FileSystem} (same : Same old new) (path : Path) :
    new.read path = old.read path := by
  have located : new.locate path = old.locate path := by
    simp only [locate, start, same.here, same.walk]
  rw [FileSystem.read, FileSystem.read, located]

/-- A file in place of no directory leaves the directories as they are. -/
theorem Replaced.sameDirectories {location : Location} {content : ByteArray} {old new : FileSystem}
    (replaced : Replaced location content old new) (free : old.get? location ≠ some .directory) :
    SameDirectories old new := by
  refine ⟨replaced.here, ?_⟩
  intro l
  by_cases h : l = location
  · subst h
    rw [replaced.target]
    exact ⟨fun h => (by cases h), fun h => absurd h free⟩
  · rw [replaced.other l h]

end FileSystem

namespace Disk

variable {temporary location : Location} {content : ByteArray} {mode : Nat} {old now : FileSystem}
  {disk : Disk} {path : Path} {fill : Fill}

/-! ### The steps -/

/-- The files while the temporary file is there: it has some content and some mode, and everything
else is as it was. -/
structure Beside (temporary : Location) (content : ByteArray) (mode : Nat) (old now : FileSystem) :
    Prop where
  here : now.here = old.here
  held : now.get? temporary = some (.file content mode)
  other : ∀ o, o ≠ temporary → now.get? o = old.get? o

theorem beside_created : Beside temporary content mode old
    (old.insert temporary (.file content mode)) :=
  ⟨rfl, by simp [get?_insert], fun o ho => by rw [get?_insert, if_neg ho]⟩

theorem Beside.insert (beside : Beside temporary content mode old now) (content' : ByteArray)
    (mode' : Nat) :
    Beside temporary content' mode' old (now.insert temporary (.file content' mode')) :=
  ⟨beside.here, by simp [get?_insert],
    fun o ho => by rw [get?_insert, if_neg ho, beside.other o ho]⟩

theorem Beside.setMode (beside : Beside temporary content mode old now) (mode' : Nat) :
    Beside temporary content mode' old (Disk.setMode temporary mode' now) := by
  rw [Disk.setMode, beside.held]
  exact beside.insert content mode'

theorem Beside.append (beside : Beside temporary content mode old now) (written : ByteArray) :
    Beside temporary (content ++ written) mode old (Disk.append temporary written now) := by
  rw [Disk.append, beside.held]
  exact beside.insert (content ++ written) mode

/-- Removing the temporary file leaves nothing behind. -/
theorem Beside.erase (beside : Beside temporary content mode old now)
    (fresh : old.get? temporary = none) : Same old (now.erase temporary) := by
  refine ⟨beside.here, ?_⟩
  intro o
  rw [get?_erase]
  split
  · rename_i h
    rw [h, fresh]
  · rename_i h
    exact beside.other o h

theorem Beside.sameDirectories (beside : Beside temporary content mode old now)
    (fresh : old.get? temporary = none) : SameDirectories old now := by
  refine ⟨beside.here, ?_⟩
  intro l
  by_cases h : l = temporary
  · rw [h, beside.held, fresh]
    simp
  · rw [beside.other l h]

/-- Renaming the temporary file changes the target, if the path has one that is no directory. -/
theorem Beside.renameOver_eq_ok (beside : Beside temporary content committedMode old now)
    (fresh : old.get? temporary = none) (target : old.target? path = some location)
    (free : old.get? location ≠ some .directory) :
    ∃ renamed, renameOver now temporary path = .ok renamed ∧
      Replaced location content old renamed := by
  have target' : now.target? path = some location := by
    rw [target?_congr (beside.sameDirectories fresh), target]
  obtain ⟨place, found, fixed, ended, rfl⟩ := place_of_target? target'
  have notDirectory : now.get? place.location ≠ some .directory := fun h =>
    free (((beside.sameDirectories fresh).directory _).1 h)
  refine ⟨(now.erase temporary).insert place.location (.file content committedMode), ?_, ?_, ?_, ?_⟩
  · simp only [renameOver, found, Bind.bind, Except.bind, fixed, ended, Bool.false_eq_true, if_false,
      beside.held]
    rfl
  · exact beside.here
  · simp [get?_insert]
  · intro o ho
    rw [get?_insert, if_neg ho, (beside.erase fresh).get]

theorem target?_of_renameOver {renamed : FileSystem}
    (h : Disk.renameOver now temporary path = .ok renamed) :
    ∃ location, now.target? path = some location ∧ now.get? location ≠ some .directory := by
  unfold renameOver at h
  cases found : now.place path with
  | error fault => simp [found, Bind.bind, Except.bind] at h
  | ok place =>
    simp only [found, Bind.bind, Except.bind] at h
    split at h
    · cases h
    rename_i free
    split at h
    · cases h
    rename_i ended
    split at h
    · cases h
    · cases h
    · rename_i notDirectory
      exact ⟨place.location, target?_eq_place found (by simpa using free) (by simpa using ended),
        notDirectory⟩

variable {refuses : DiskOperation → Option FileFault} {states : List FileSystem}
  {fault : Option FileFault}

/-- A step is refused, or it fails, or the steps behind it are taken. -/
theorem takeSteps_cases {step : Step} {rest : List Step}
    (h : takeSteps refuses temporary (step :: rest) now = (states, fault)) :
    (∃ f, refuses step.operation = some f ∧ fault = some f ∧ states = [now.erase temporary]) ∨
      refuses step.operation = none ∧
        ((∃ f, (step.run now).2 = some f ∧ fault = some f ∧
            states = [(step.run now).1, (step.run now).1.erase temporary]) ∨
          (step.run now).2 = none ∧ ∃ later,
            takeSteps refuses temporary rest (step.run now).1 = (later, fault) ∧
              states = (step.run now).1 :: later) := by
  rw [takeSteps] at h
  split at h
  · rename_i f refused
    cases h
    exact .inl ⟨f, refused, rfl, rfl⟩
  rename_i permitted
  refine .inr ⟨permitted, ?_⟩
  split at h
  · rename_i after f run
    cases h
    rw [run]
    exact .inl ⟨f, rfl, rfl, rfl⟩
  · rename_i after run
    cases h
    rw [run]
    exact .inr ⟨rfl, _, rfl, rfl⟩

/-- A step beside the files goes through, or nothing is left of the replacement. -/
theorem takeSteps_cons {step : Step} {rest : List Step} {content' : ByteArray} {mode' : Nat}
    (beside : Beside temporary content mode old now) (fresh : old.get? temporary = none)
    (stays : Beside temporary content' mode' old (step.run now).1)
    (h : takeSteps refuses temporary (step :: rest) now = (states, fault)) :
    (∃ f, fault = some f ∧ Same old (states.getLastD now) ∧
      ¬ (refuses step.operation = none ∧ (step.run now).2 = none)) ∨
      refuses step.operation = none ∧ (step.run now).2 = none ∧
        ∃ later, takeSteps refuses temporary rest (step.run now).1 = (later, fault) ∧
          states.getLastD now = later.getLastD (step.run now).1 := by
  rcases takeSteps_cases h with ⟨f, refused, rfl, rfl⟩ |
    ⟨permitted, ⟨f, failed, rfl, rfl⟩ | ⟨succeeded, later, others, rfl⟩⟩
  · exact .inl ⟨f, rfl, beside.erase fresh, by simp [refused]⟩
  · exact .inl ⟨f, rfl, stays.erase fresh, by simp [failed]⟩
  · exact .inr ⟨permitted, succeeded, later, others, List.getLastD_cons⟩

/-- Nothing stands against the steps that change the target. -/
structure Unhindered (refuses : DiskOperation → Option FileFault) (path : Path) (fill : Fill)
    (files : FileSystem) (location : Location) : Prop where
  permits : ∀ operation, operation ≠ .read → operation ≠ .createTemporary →
    refuses operation = none
  whole : fill.fault = none
  target : files.target? path = some location
  free : files.get? location ≠ some .directory

/-- The last step changes the target, or nothing is left of the replacement. -/
theorem takeSteps_rename (beside : Beside temporary content committedMode old now)
    (fresh : old.get? temporary = none)
    (h : takeSteps refuses temporary ((steps path temporary fill).drop 3) now = (states, fault)) :
    (∃ f, fault = some f ∧ Same old (states.getLastD now) ∧
      ∀ location, ¬ Unhindered refuses path fill old location) ∨
      fault = none ∧ refuses .rename = none ∧ ∃ location, old.target? path = some location ∧
        old.get? location ≠ some .directory ∧
        Replaced location content old (states.getLastD now) := by
  have directories := beside.sameDirectories fresh
  simp only [steps, List.drop, takeSteps] at h
  split at h
  · rename_i f refused
    cases h
    refine .inl ⟨f, rfl, beside.erase fresh, ?_⟩
    intro location free
    rw [free.permits _ (by decide) (by decide)] at refused
    cases refused
  rename_i permitted
  cases run : renameOver now temporary path with
  | error f =>
    simp only [run] at h
    cases h
    refine .inl ⟨f, rfl, beside.erase fresh, ?_⟩
    intro location free
    obtain ⟨renamed, run', -⟩ := beside.renameOver_eq_ok fresh free.target free.free
    rw [run] at run'
    cases run'
  | ok renamed =>
    simp only [run] at h
    cases h
    obtain ⟨location, target, free⟩ := target?_of_renameOver run
    rw [target?_congr directories] at target
    have free' : old.get? location ≠ some .directory := fun h =>
      free ((directories.directory _).2 h)
    obtain ⟨renamed', run', replaced⟩ := beside.renameOver_eq_ok fresh target free'
    obtain rfl : renamed' = renamed := by
      rw [run] at run'
      exact (Except.ok.inj run').symm
    exact .inr ⟨rfl, permitted, location, target, free', replaced⟩

/-- All steps go through and change the target, or nothing is left of the replacement. The mode of
the target is the one that was set, whichever the temporary file was made with. -/
theorem takeSteps_steps (beside : Beside temporary ByteArray.empty mode old now)
    (fresh : old.get? temporary = none)
    (h : takeSteps refuses temporary (steps path temporary fill) now = (states, fault)) :
    (∃ f, fault = some f ∧ Same old (states.getLastD now) ∧
      ∀ location, ¬ Unhindered refuses path fill old location) ∨
      fault = none ∧ ∃ location, Unhindered refuses path fill old location ∧
        Replaced location fill.written old (states.getLastD now) := by
  have set := beside.setMode committedMode
  have filled := set.append fill.written
  rw [ByteArray.empty_append] at filled
  have hindered (operation : DiskOperation) {outcome : Prop} (asked : operation ≠ .read)
      (asked' : operation ≠ .createTemporary) (goes : fill.fault = none → outcome)
      (h : ¬ (refuses operation = none ∧ outcome)) (location : Location) :
      ¬ Unhindered refuses path fill old location :=
    fun free => h ⟨free.permits operation asked asked', goes free.whole⟩
  simp only [steps] at h
  rcases takeSteps_cons beside fresh set h with ⟨f, rfl, same, no⟩ | ⟨permit₁, -, later₁, h₁, last₁⟩
  · exact .inl ⟨f, rfl, same, hindered .setMode (by decide) (by decide) (fun _ => rfl) no⟩
  rcases takeSteps_cons set fresh filled h₁ with
    ⟨f, rfl, same, no⟩ | ⟨permit₂, whole, later₂, h₂, last₂⟩
  · rw [last₁]
    exact .inl ⟨f, rfl, same, hindered .fill (by decide) (by decide) id no⟩
  rcases takeSteps_cons filled fresh filled h₂ with
    ⟨f, rfl, same, no⟩ | ⟨permit₃, -, later₃, h₃, last₃⟩
  · rw [last₁, last₂]
    exact .inl ⟨f, rfl, same, hindered .sync (by decide) (by decide) (fun _ => rfl) no⟩
  rw [last₁, last₂, last₃]
  rcases takeSteps_rename filled fresh h₃ with failed | ⟨rfl, permit₄, changed⟩
  · exact .inl failed
  · obtain ⟨location, target, free, replaced⟩ := changed
    refine .inr ⟨rfl, location, ⟨fun operation asked asked' => ?_, whole, target, free⟩, replaced⟩
    cases operation <;> first | assumption | contradiction

/-- A replacement of the file of a path can be completed, at a location. -/
structure Allows (disk : Disk) (path : Path) (location : Location) : Prop where
  permits : ∀ operation, operation ≠ .read → disk.refuses path operation = none
  temporary : ∃ name place, path.fileName? = some name ∧
    disk.temporaryPlace path name = .ok place
  target : disk.files.target? path = some location
  free : disk.files.get? location ≠ some .directory

/-! ### The whole -/

theorem temporaryPlace_eq_ok {name : String} :
    disk.temporaryPlace path name = .ok temporary ↔
      checkLonger temporaryOverhead (path.directory.join name) = .ok () ∧
        name.utf8ByteSize + temporaryOverhead ≤ maxNameSize ∧ ∃ directory,
          disk.files.walkToDirectory (disk.files.start path) path.directory.pieces = .ok directory ∧
            temporary = directory ++
              [temporaryName name (disk.temporaries.choose disk.files directory name)] := by
  unfold temporaryPlace
  simp only [Bind.bind, Except.bind]
  cases checkLonger temporaryOverhead (path.directory.join name) with
  | error fault => simp
  | ok _ =>
    cases disk.files.walkToDirectory (disk.files.start path) path.directory.pieces with
    | error fault => simp
    | ok directory =>
      simp only [Pure.pure, Except.pure, Except.ok.injEq, true_and, exists_eq_left']
      by_cases long : maxNameSize < name.utf8ByteSize + temporaryOverhead
      · rw [if_pos long]
        simp [Nat.not_le.2 long]
      · rw [if_neg long]
        simp [Nat.le_of_not_lt long, eq_comm]

/-- There is nothing yet where a temporary file is made. -/
theorem get?_temporaryPlace {name : String}
    (h : disk.temporaryPlace path name = .ok temporary) : disk.files.get? temporary = none := by
  obtain ⟨-, -, directory, -, rfl⟩ := temporaryPlace_eq_ok.1 h
  exact disk.temporaries.free disk.files directory name

/-- A replacement is begun with an empty temporary file, or not at all. -/
theorem course_cases (disk : Disk) (path : Path) (fill : Fill) :
    (∃ e, disk.course path fill = ⟨[], .error e⟩ ∧ ∀ location, ¬ Allows disk path location) ∨
      ∃ name temporary states fault, path.fileName? = some name ∧
        disk.refuses path .createTemporary = none ∧
        disk.temporaryPlace path name = .ok temporary ∧
        takeSteps (disk.refuses path) temporary (steps path temporary fill)
            (disk.files.insert temporary (.file ByteArray.empty disk.temporaries.mode)) =
          (states, fault) ∧
        disk.course path fill =
          ⟨disk.files.insert temporary (.file ByteArray.empty disk.temporaries.mode) :: states,
            fault.elim (.ok ()) fun fault => .error (.write path fault)⟩ := by
  unfold course
  cases named : path.fileName? with
  | none =>
    refine .inl ⟨_, rfl, ?_⟩
    intro location allowed
    obtain ⟨name, place, named', -⟩ := allowed.temporary
    rw [named] at named'
    cases named'
  | some name =>
    dsimp only
    cases began : (disk.refuses path .createTemporary).elim
        (disk.temporaryPlace path name) .error with
    | error f =>
      refine .inl ⟨_, rfl, ?_⟩
      intro location allowed
      obtain ⟨name', place, named', found⟩ := allowed.temporary
      rw [named] at named'
      cases named'
      rw [allowed.permits _ (by decide), Option.elim_none, found] at began
      cases began
    | ok temporary =>
      have permitted : disk.refuses path .createTemporary = none := by
        cases refused : disk.refuses path .createTemporary with
        | none => rfl
        | some f => simp [refused] at began
      rw [permitted, Option.elim_none] at began
      exact .inr ⟨name, temporary, _, _, rfl, permitted, began, rfl, rfl⟩

theorem replace_cases (disk : Disk) (path : Path) (fill : Fill) :
    (∃ e, (disk.replace path fill).1 = .error e ∧ Same disk.files (disk.replace path fill).2.files ∧
      ∀ location, Allows disk path location → fill.fault ≠ none) ∨
      (disk.replace path fill).1 = .ok () ∧ fill.fault = none ∧ ∃ location,
        Allows disk path location ∧
        Replaced location fill.written disk.files (disk.replace path fill).2.files := by
  rcases course_cases disk path fill with ⟨e, begun, hindered⟩ |
    ⟨name, temporary, states, fault, named, permitted, began, run, whole⟩
  · rw [replace, begun]
    exact .inl
      ⟨e, rfl, ⟨rfl, fun _ => rfl⟩, fun location allowed => absurd allowed (hindered location)⟩
  · rw [replace, whole]
    rcases takeSteps_steps beside_created (get?_temporaryPlace began) run with
      ⟨f, rfl, same, hindered⟩ | ⟨rfl, location, free, replaced⟩
    · refine .inl ⟨_, rfl, by rwa [List.getLastD_cons], ?_⟩
      intro location allowed complete
      exact hindered location ⟨fun operation asked _ => allowed.permits operation asked, complete,
        allowed.target, allowed.free⟩
    · refine .inr ⟨rfl, free.whole, location, ⟨fun operation asked => ?_,
        ⟨name, temporary, named, began⟩, free.target, free.free⟩, by rwa [List.getLastD_cons]⟩
      by_cases create : operation = .createTemporary
      · rw [create, permitted]
      · exact free.permits operation asked create

/-- What a replacement comes to, by what allows it. -/
theorem replace_of_allows (allowed : Allows disk path location) (content : ByteArray) :
    (disk.replace path (.whole content)).1 = .ok () ∧
      Replaced location content disk.files (disk.replace path (.whole content)).2.files := by
  rcases replace_cases disk path (.whole content) with
    ⟨e, -, -, hindered⟩ | ⟨done, -, location', allowed', replaced⟩
  · exact absurd rfl (hindered location allowed)
  · obtain rfl : location' = location := by
      have := allowed.target
      rw [allowed'.target] at this
      exact Option.some.inj this
    exact ⟨done, replaced⟩

theorem replace_of_not_allows (hindered : ∀ location, ¬ Allows disk path location)
    (content : ByteArray) :
    ∃ e, (disk.replace path (.whole content)).1 = .error e ∧
      Same disk.files (disk.replace path (.whole content)).2.files := by
  rcases replace_cases disk path (.whole content) with
    ⟨e, failed, same, -⟩ | ⟨-, -, location, allowed, -⟩
  · exact ⟨e, failed, same⟩
  · exact absurd allowed (hindered location)

/-- A replacement never touches a directory. -/
theorem sameDirectories_replace (disk : Disk) (path : Path) (fill : Fill) :
    SameDirectories disk.files (disk.replace path fill).2.files := by
  rcases replace_cases disk path fill with ⟨e, -, same, -⟩ | ⟨-, -, location, allowed, replaced⟩
  · exact same.sameDirectories
  · exact replaced.sameDirectories allowed.free

/-- What allows a replacement are the directories and the device. How temporary files are named is of
no account. -/
theorem Allows.congr {other : Disk} (directories : SameDirectories disk.files other.files)
    (device : other.refuses = disk.refuses) (allowed : Allows disk path location) :
    Allows other path location := by
  obtain ⟨permits, ⟨name, place, named, found⟩, target, free⟩ := allowed
  refine ⟨device ▸ permits, ?_, ?_, ?_⟩
  · obtain ⟨checked, short, directory, walked, -⟩ := temporaryPlace_eq_ok.1 found
    rw [← start_congr directories] at walked
    exact ⟨name, _, named, temporaryPlace_eq_ok.2
      ⟨checked, short, directory, walkToDirectory_congr directories walked, rfl⟩⟩
  · rw [target?_congr directories, target]
  · exact fun h => free ((directories.directory location).1 h)

end Disk

/-! ### Contents -/

/-- Two paths under which no file is put at the same location. -/
def FileSystem.Apart (fs : FileSystem) (path other : Path) : Prop :=
  ∀ location, fs.target? path = some location → fs.target? other ≠ some location

theorem FileSystem.apart_iff {fs : FileSystem} {path other : Path} :
    fs.Apart path other ↔ fs.target? path = none ∨ fs.target? path ≠ fs.target? other := by
  rw [Apart]
  cases fs.target? path with
  | none => simp
  | some location => simp [eq_comm]

instance FileSystem.decidableApart (fs : FileSystem) (path other : Path) :
    Decidable (fs.Apart path other) :=
  decidable_of_iff _ apart_iff.symm

theorem FileSystem.Apart.symm {fs : FileSystem} {path other : Path} (apart : fs.Apart path other) :
    fs.Apart other path :=
  fun location target target' => apart location target' target

theorem FileSystem.Apart.congr {old new : FileSystem} {path other : Path}
    (directories : SameDirectories old new) (apart : old.Apart path other) :
    new.Apart path other := by
  intro location target
  rw [target?_congr directories] at target ⊢
  exact apart location target

namespace Disk

variable {disk : Disk} {path other : Path} {content : ByteArray} {fill : Fill}

theorem content?_of_same {old new : FileSystem} (same : Same old new) (path : Path) :
    new.content? path = old.content? path := by
  rw [content?, content?, target?_congr same.sameDirectories]
  cases old.target? path with
  | none => rfl
  | some location => simp only [Option.bind_some, same.get]

/-- What was put at the target of a path is found under the path. -/
theorem content?_of_replaced {location : Location} {old new : FileSystem}
    (target : old.target? path = some location) (free : old.get? location ≠ some .directory)
    (replaced : Replaced location content old new) : new.content? path = some content := by
  rw [← target?_congr (replaced.sameDirectories free)] at target
  rw [content?_of_target? target, replaced.target]

/-- A replacement that succeeds puts the new content under the path. -/
theorem content?_of_replace_ok (done : (disk.replace path (.whole content)).1 = .ok ()) :
    (disk.replace path (.whole content)).2.files.content? path = some content := by
  rcases replace_cases disk path (.whole content) with
    ⟨e, failed, -, -⟩ | ⟨-, -, location, allowed, replaced⟩
  · rw [done] at failed
    cases failed
  · exact content?_of_replaced allowed.target allowed.free replaced

/-- A replacement leaves the content under other paths as it is. -/
theorem content?_replace_of_apart (apart : disk.files.Apart path other) (content : ByteArray) :
    (disk.replace path (.whole content)).2.files.content? other = disk.files.content? other := by
  rcases replace_cases disk path (.whole content) with
    ⟨e, -, same, -⟩ | ⟨-, -, location, allowed, replaced⟩
  · exact content?_of_same same other
  · rw [content?, content?, target?_congr (replaced.sameDirectories allowed.free)]
    cases target : disk.files.target? other with
    | none => rfl
    | some location' =>
      have differ : location' ≠ location := by
        rintro rfl
        exact apart _ allowed.target target
      simp only [Option.bind_some, replaced.other _ differ]

end Disk

end SectionStore
