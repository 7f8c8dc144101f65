import Mathlib.Data.List.Nodup
import SectionStore.Registry

/-!
# Registries that are reached

A registry is reached by registering providers, some of which may be refused. In a reached registry
no name comes twice (`Reached.nodup_names`), so every provider belongs to one file only
(`Reached.file_unique`); and every name can be the tag of a section
(`Reached.isName_of_mem_namesOf`).
-/

namespace SectionStore.Registry

/-- The registries that accepted registrations lead to. -/
inductive Reached : Registry → Prop where
  | new (station : Station) (table : FileTable) : Reached (.new station table)
  | register {registry registry' : Registry} {name : String} {file : Option FileId}
      (reached : Reached registry) (accepted : registry.register name file = .ok registry') :
      Reached registry'

/-- An accepted provider has a name of its own, and comes last. -/
theorem register_eq_ok {registry registry' : Registry} {name : String} {file : Option FileId}
    (accepted : registry.register name file = .ok registry') :
    registry.contains name = false ∧ Markup.isName name.toList = true ∧
      ∃ target, registry.table.contains target = true ∧
        registry' = { registry with entries := registry.entries ++ [⟨name, target⟩] } := by
  unfold register at accepted
  simp only at accepted
  split at accepted
  · cases accepted
  rename_i named
  split at accepted
  · cases accepted
  rename_i known
  split at accepted
  · cases accepted
  rename_i fresh
  cases accepted
  exact ⟨by simpa using fresh, by simpa using named, _, by simpa using known, rfl⟩

theorem Reached.nodup_names {registry : Registry} (reached : Reached registry) :
    (registry.entries.map (·.name)).Nodup := by
  induction reached with
  | new station table => exact List.nodup_nil
  | @register registry registry' name file reached accepted ih =>
    obtain ⟨fresh, -, target, -, rfl⟩ := register_eq_ok accepted
    rw [List.map_append, List.nodup_append]
    refine ⟨ih, List.pairwise_singleton _ _, ?_⟩
    intro other hother last hlast
    obtain ⟨entry, hentry, rfl⟩ := List.mem_map.1 hother
    obtain rfl : last = name := by simpa using hlast
    have := List.any_eq_false.1 fresh entry hentry
    simpa using this

/-- Every provider has a name that the tag of a section can have. -/
theorem Reached.isName_of_mem_namesOf {registry : Registry} (reached : Reached registry)
    {file : FileId} {name : String} (here : name ∈ registry.namesOf file) :
    Markup.isName name.toList = true := by
  rw [mem_namesOf_iff] at here
  induction reached with
  | new station table => cases here
  | register reached accepted ih =>
    obtain ⟨-, named, target, -, rfl⟩ := register_eq_ok accepted
    rcases List.mem_append.1 here with here | here
    · exact ih here
    · cases List.mem_singleton.1 here
      exact named

/-- A provider belongs to one file. -/
theorem Reached.file_unique {registry : Registry} (reached : Reached registry) {name : String}
    {file other : FileId} (here : name ∈ registry.namesOf file)
    (there : name ∈ registry.namesOf other) :
    file = other := by
  have nodup := reached.nodup_names
  rw [mem_namesOf_iff] at here there
  have same : (⟨name, file⟩ : Registration) = ⟨name, other⟩ :=
    List.inj_on_of_nodup_map nodup here there rfl
  exact congrArg (·.file) same

end SectionStore.Registry
