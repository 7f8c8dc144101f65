import SectionStore.Proofs.Provider.Loading
import SectionStore.Proofs.Running
import SectionStore.Store

/-!
# What reading does to providers in memory

Reading one file loads its providers with what is found (`StoreFile.Finds`), or fails; then they are
reset or nothing has changed (`readFile_cases`). A whole reading resets all providers first, so one
that succeeds leaves each of them with what was found for it, and no new data (`readAll_eq_ok`).
-/

namespace SectionStore

/-- The file is absent from a device, or holds the document of an envelope. -/
def StoreFile.Finds (file : StoreFile) (disk : Disk) (found : Option Envelope) : Prop :=
  ∃ content, file.read? disk = .ok content ∧ content.mapM Envelope.decode = .ok found

namespace Store

open Memory MemoryProvider

variable {registry : Registry} {disk : Disk} {file : StoreFile} {files : List StoreFile}
  {m m' : Memory} {name : String}

/-- What reading one file comes to. -/
theorem readFile_cases (reached : registry.Reached) (disk : Disk) (file : StoreFile) (m : Memory) :
    (∃ found m', readFile registry disk file m = .ok () m' ∧ file.Finds disk found ∧
        Loaded (registry.namesOf file.id) file.cipher found m m' ∧
        ∀ name, name ∉ registry.namesOf file.id → m'.provider name = m.provider name) ∨
      ∃ e m', readFile registry disk file m = .error e m' ∧
        (m' = m ∨ Wiped (registry.namesOf file.id) m m') := by
  cases read : file.read? disk with
  | error e =>
    refine .inr ⟨.file e, m, ?_, .inl rfl⟩
    simp only [readFile, read]
  | ok content =>
    rcases Registry.deserialize_cases reached content file.cipher m with
      ⟨found, m', run, decoded, loaded, others⟩ | ⟨e, m', run, left⟩
    · refine .inl ⟨found, m', ?_, ⟨content, read, decoded⟩, loaded, others⟩
      simp only [readFile, read, run]
    · refine .inr ⟨.registry e, m', ?_, left⟩
      simp only [readFile, read, run]

theorem wiped_resetAll (registry : Registry) (files : List StoreFile) (m : Memory) :
    Wiped (files.flatMap fun file => registry.namesOf file.id) m (resetAll registry files m) := by
  induction files generalizing m with
  | nil => exact ⟨fun _ h => (by cases h), fun _ => .refl _, fun _ _ => rfl⟩
  | cons file rest ih =>
    have first := Registry.wiped_reset registry file.id m
    have later := ih (registry.reset file.id m)
    rw [List.flatMap_cons]
    refine ⟨fun name inside => ?_, fun name => (first.alike name).trans (later.alike name),
      fun name outside => ?_⟩
    · by_cases again : name ∈ rest.flatMap fun file => registry.namesOf file.id
      · exact later.blank name again
      · have here := (List.mem_append.1 inside).resolve_right again
        have same : (resetAll registry (file :: rest) m).provider name =
            (registry.reset file.id m).provider name := later.other name again
        rw [same]
        exact first.blank name here
    · obtain ⟨here, again⟩ := not_or.1 (mt List.mem_append.2 outside)
      exact (later.other name again).trans (first.other name here)

/-- A reading that succeeds has found something for every file. If no two files have one id, each
provider has what was found in its file. -/
theorem readAll_eq_ok (reached : registry.Reached)
    (ids : files.Pairwise fun file other => file.id ≠ other.id)
    (run : readAll registry disk files m = .ok () m') :
    (∀ file ∈ files, ∃ found, file.Finds disk found ∧
        Loaded (registry.namesOf file.id) file.cipher found m m') ∧
      ∀ name, (∀ file ∈ files, name ∉ registry.namesOf file.id) →
        m'.provider name = m.provider name := by
  induction files generalizing m with
  | nil =>
    cases run
    exact ⟨fun _ h => (by cases h), fun _ _ => rfl⟩
  | cons file rest ih =>
    obtain ⟨apart, ids⟩ := List.pairwise_cons.1 ids
    obtain ⟨_, m₁, first, later⟩ := run_bind_eq_ok_iff.1 run
    obtain ⟨all, others⟩ := ih ids later
    rcases readFile_cases reached disk file m with
      ⟨found, m₂, done, finds, loaded, elsewhere⟩ | ⟨e, m₂, failed, -⟩
    · rw [first] at done
      cases done
      refine ⟨fun other here => ?_, fun name outside => ?_⟩
      · rcases List.mem_cons.1 here with rfl | here
        · refine ⟨found, finds, fun name inside => ?_⟩
          rw [others name fun other there again =>
            apart other there (reached.file_unique inside again)]
          exact loaded name inside
        · obtain ⟨found', finds', loaded'⟩ := all other here
          refine ⟨found', finds', fun name inside => ?_⟩
          have same : m₁.provider name = m.provider name :=
            elsewhere name fun again => apart other here (reached.file_unique again inside)
          rw [← same]
          exact loaded' name inside
      · obtain ⟨here, there⟩ := List.forall_mem_cons.1 outside
        rw [others name there, elsewhere name here]
    · rw [first] at failed
      cases failed

end Store

end SectionStore
