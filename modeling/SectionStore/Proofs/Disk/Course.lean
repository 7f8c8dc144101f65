import SectionStore.Proofs.Disk.Replace
import SectionStore.Proofs.FileSystem.Parent

/-!
# What is found in the course of a replacement

While a file is replaced, others may read it. `Disk.Passes` are the files that can be found then:
behind each change, and also within the filling. Up to the renaming the steps work on the temporary
file only (`Step.StaysBeside`), so after any number of them everything else is as it was
(`beside_of_takeSteps`); and the temporary file is not on the way to the target (`Beside.read_eq`).
Main statement: `replace_all_or_nothing`.
-/

namespace SectionStore.Disk

open FileSystem

variable {temporary location : Location} {content : ByteArray} {mode : Nat} {old now : FileSystem}
  {disk : Disk} {path : Path} {fill : Fill} {name : String} {states : List FileSystem}
  {refuses : DiskOperation → Option FileFault} {fault : Option FileFault}

/-! ### The steps beside the files -/

/-- The step changes the temporary file only. -/
def Step.StaysBeside (temporary : Location) (old : FileSystem) (step : Step) : Prop :=
  ∀ ⦃content : ByteArray⦄ ⦃mode : Nat⦄ ⦃now : FileSystem⦄, Beside temporary content mode old now →
    ∃ content' mode', Beside temporary content' mode' old (step.run now).1

/-- The step changes the temporary file only if it fails. -/
def Step.FailsBeside (temporary : Location) (old : FileSystem) (step : Step) : Prop :=
  ∀ ⦃content : ByteArray⦄ ⦃mode : Nat⦄ ⦃now : FileSystem⦄, Beside temporary content mode old now →
    (step.run now).2 ≠ none → ∃ content' mode', Beside temporary content' mode' old (step.run now).1

/-- What is found before the last step of a run has succeeded: the files beside the temporary file,
or the files as they were. -/
theorem beside_of_takeSteps {steps : List Step} {last : Step}
    (beside : Beside temporary content mode old now) (fresh : old.get? temporary = none)
    (stay : ∀ step ∈ steps, step.StaysBeside temporary old) (fails : last.FailsBeside temporary old)
    (h : takeSteps refuses temporary (steps ++ [last]) now = (states, fault)) :
    ∀ files ∈ states, (∃ content' mode', Beside temporary content' mode' old files) ∨
      Same old files ∨ fault = none ∧ files = states.getLastD now := by
  induction steps generalizing content mode now states with
  | nil =>
    rw [List.nil_append] at h
    rcases takeSteps_cases h with ⟨f, -, rfl, rfl⟩ |
      ⟨-, ⟨f, failed, rfl, rfl⟩ | ⟨-, later, others, rfl⟩⟩
    · intro files among
      obtain rfl := List.mem_singleton.1 among
      exact .inr (.inl (beside.erase fresh))
    · obtain ⟨content', mode', beside'⟩ := fails beside (by simp [failed])
      simp only [List.forall_mem_cons]
      exact ⟨.inl ⟨content', mode', beside'⟩, .inr (.inl (beside'.erase fresh)), List.forall_mem_nil _⟩
    · cases others
      intro files among
      obtain rfl := List.mem_singleton.1 among
      exact .inr (.inr ⟨rfl, rfl⟩)
  | cons step steps ih =>
    obtain ⟨first, stay⟩ := List.forall_mem_cons.1 stay
    obtain ⟨content', mode', beside'⟩ := first beside
    rw [List.cons_append] at h
    rcases takeSteps_cases h with ⟨f, -, rfl, rfl⟩ |
      ⟨-, ⟨f, -, rfl, rfl⟩ | ⟨-, later, others, rfl⟩⟩
    · intro files among
      obtain rfl := List.mem_singleton.1 among
      exact .inr (.inl (beside.erase fresh))
    · simp only [List.forall_mem_cons]
      exact ⟨.inl ⟨content', mode', beside'⟩, .inr (.inl (beside'.erase fresh)), List.forall_mem_nil _⟩
    · rw [List.getLastD_cons]
      exact List.forall_mem_cons.2 ⟨.inl ⟨content', mode', beside'⟩, ih beside' stay others⟩

/-- Only the renaming goes beyond the temporary file. -/
theorem staysBeside_of_mem_steps {step : Step} (among : step ∈ (steps path temporary fill).take 3) :
    step.StaysBeside temporary old := by
  intro content mode now beside
  simp only [steps, List.take, List.mem_cons, List.not_mem_nil, or_false] at among
  rcases among with rfl | rfl | rfl
  · exact ⟨content, committedMode, beside.setMode committedMode⟩
  · exact ⟨content ++ fill.written, mode, beside.append fill.written⟩
  · exact ⟨content, mode, beside⟩

/-- The step that puts the temporary file over the target. -/
theorem steps_eq (path : Path) (temporary : Location) (fill : Fill) :
    ∃ last, steps path temporary fill = (steps path temporary fill).take 3 ++ [last] ∧
      ∀ old, last.FailsBeside temporary old := by
  refine ⟨_, rfl, ?_⟩
  intro old content mode now beside failed
  simp only at failed ⊢
  cases run : renameOver now temporary path with
  | ok renamed => simp [run] at failed
  | error f => exact ⟨content, mode, beside⟩

/-! ### What a reader finds -/

/-- The temporary file is not on the way to the target. -/
theorem Beside.read_eq (beside : Beside temporary content mode disk.files now)
    (named : path.fileName? = some name) (place : disk.temporaryPlace path name = .ok temporary) :
    now.read path = disk.files.read path := by
  have directories := beside.sameDirectories (get?_temporaryPlace place)
  obtain ⟨-, -, directory, found, rfl⟩ := temporaryPlace_eq_ok.1 place
  have apart : directory ++ [name] ≠
      directory ++ [temporaryName name (disk.temporaries.choose disk.files directory name)] := by
    intro same
    exact temporaryName_ne name _ (by simpa using same.symm)
  exact read_congr_of_directory named found directories (beside.other _ apart)

/-- The files that can be found in the course of a replacement: those before it, those behind each
change, and those within the filling, when a part of the content is written. A filling that has come
to this part is one that may still fail there. -/
inductive Passes (disk : Disk) (path : Path) (fill : Fill) : FileSystem → Prop where
  | before : Passes disk path fill disk.files
  | behind {now : FileSystem} (among : now ∈ (disk.course path fill).states) :
      Passes disk path fill now
  | within {part rest : ByteArray} {fault : FileFault} {now : FileSystem}
      (split : fill.written = part ++ rest)
      (among : now ∈ (disk.course path ⟨part, some fault⟩).states) : Passes disk path fill now

/-- The target is read as before, unless the replacement has just succeeded. -/
theorem read_of_mem_course (among : now ∈ (disk.course path fill).states) :
    now.read path = disk.files.read path ∨
      (disk.replace path fill).1 = .ok () ∧ now = (disk.replace path fill).2.files := by
  rcases course_cases disk path fill with ⟨e, begun, -⟩ |
    ⟨name, temporary, states, fault, named, -, place, run, whole⟩
  · simp [begun] at among
  have fresh := get?_temporaryPlace place
  obtain ⟨last, split, fails⟩ := steps_eq path temporary fill
  rw [split] at run
  have found := beside_of_takeSteps beside_created fresh (fun _ => staysBeside_of_mem_steps)
    (fails disk.files) run
  rw [whole] at among
  rcases List.mem_cons.1 among with rfl | among
  · exact .inl (beside_created.read_eq named place)
  rcases found now among with ⟨content, mode, beside⟩ | same | ⟨rfl, rfl⟩
  · exact .inl (beside.read_eq named place)
  · exact .inl (same.read path)
  · right
    rw [replace, whole]
    exact ⟨rfl, by rw [List.getLastD_cons]⟩

/-- A filling that fails comes to no new content. -/
theorem read_of_mem_course_of_fault {part : ByteArray} {f : FileFault}
    (among : now ∈ (disk.course path ⟨part, some f⟩).states) :
    now.read path = disk.files.read path := by
  rcases read_of_mem_course among with same | ⟨done, -⟩
  · exact same
  rcases replace_cases disk path ⟨part, some f⟩ with ⟨e, failed, -⟩ | ⟨-, whole, -⟩
  · rw [done] at failed
    cases failed
  · cases whole

theorem read?_congr (same : now.read path = disk.files.read path) :
    read? { disk with files := now } path = disk.read? path := by
  simp only [read?, same]

/-- The device may refuse to read the new content, as it would have refused to read the old. -/
theorem read?_of_read (found : now.read path = .ok content) :
    read? { disk with files := now } path = disk.read? path ∨
      read? { disk with files := now } path = .ok (some content) := by
  cases refused : disk.refuses path .read with
  | none => exact .inr (by simp [read?, refused, found])
  | some f => exact .inl (by simp [read?, refused])

/-- The content that a replacement has put under a path is read through it. -/
theorem read_of_replace_ok (done : (disk.replace path fill).1 = .ok ()) :
    ∃ location, disk.files.target? path = some location ∧
      Replaced location fill.written disk.files (disk.replace path fill).2.files ∧
      (disk.replace path fill).2.files.read path = .ok fill.written := by
  rcases replace_cases disk path fill with ⟨e, failed, -⟩ | ⟨-, -, location, allowed, replaced⟩
  · rw [done] at failed
    cases failed
  · exact ⟨location, allowed.target, replaced,
      read_of_content? (content?_of_replaced allowed.target allowed.free replaced)⟩

/-- A replacement is all or nothing. Whoever reads the target while it goes on finds what was there
before, or all that is written, once that is done. It is done exactly if nothing stands against it,
and then the target is the only thing that has changed; otherwise nothing has. -/
theorem replace_all_or_nothing (disk : Disk) (path : Path) (fill : Fill) :
    (∀ now, Passes disk path fill now →
      read? { disk with files := now } path = disk.read? path ∨
        (disk.replace path fill).1 = .ok () ∧
          read? { disk with files := now } path = .ok (some fill.written)) ∧
      ((disk.replace path fill).1 = .ok () ↔
        fill.fault = none ∧ ∃ location, Allows disk path location) ∧
      ((disk.replace path fill).1 = .ok () → ∃ location, disk.files.target? path = some location ∧
        (disk.replace path fill).2.files.read path = .ok fill.written ∧
        (disk.replace path fill).2.files.get? location = some (.file fill.written 0o600) ∧
        ∀ other, other ≠ location →
          (disk.replace path fill).2.files.get? other = disk.files.get? other) ∧
      ∀ e, (disk.replace path fill).1 = .error e →
        (disk.replace path fill).2.read? path = disk.read? path ∧
          ∀ other, (disk.replace path fill).2.files.get? other = disk.files.get? other := by
  refine ⟨?_, ?_, ?_, ?_⟩
  · intro now passes
    cases passes with
    | before => exact .inl rfl
    | behind among =>
      rcases read_of_mem_course among with same | ⟨done, rfl⟩
      · exact .inl (read?_congr same)
      · obtain ⟨location, -, -, found⟩ := read_of_replace_ok done
        exact (read?_of_read found).imp_right fun new => ⟨done, new⟩
    | within split among => exact .inl (read?_congr (read_of_mem_course_of_fault among))
  · rcases replace_cases disk path fill with
      ⟨e, failed, -, hindered⟩ | ⟨done, whole, location, allowed, -⟩
    · constructor
      · intro done
        rw [done] at failed
        cases failed
      · rintro ⟨whole, location, allowed⟩
        exact absurd whole (hindered location allowed)
    · exact ⟨fun _ => ⟨whole, location, allowed⟩, fun _ => done⟩
  · intro done
    obtain ⟨location, target, replaced, found⟩ := read_of_replace_ok done
    exact ⟨location, target, found, replaced.target, replaced.other⟩
  · intro e failed
    rcases replace_cases disk path fill with ⟨-, -, same, -⟩ | ⟨done, -⟩
    · exact ⟨read?_congr (same.read path), same.get⟩
    · rw [done] at failed
      cases failed

end SectionStore.Disk
