import SectionStore.Proofs.Store.Commit

/-!
# What a refresh buffers

A refresh serves the files one after the other: it attempts to build a document for each file whose
providers have new data, and buffers it. `servings` is the record of these attempts, and a file
holds the last document of the record in its buffer afterwards (`files_refreshAll`). The record of a
whole run is the concatenation of those of its writes. What was buffered before decides neither
which attempts are made nor what becomes of the providers (`refreshAll_bare`).
-/

namespace SectionStore

/-- An attempt to build the document of a file. There is none if a provider or the encoder refused.
-/
structure Serving where
  path : Path
  document : Option ByteArray

namespace Serving

/-- The last attempt for the file of a path. -/
def last? (path : Path) (log : List Serving) : Option Serving :=
  (log.filter (·.path = path)).getLast?

/-- The last document that was built for the file of a path. -/
def lastDocument? (path : Path) (log : List Serving) : Option ByteArray :=
  ((log.filter (·.path = path)).filterMap (·.document)).getLast?

variable {path : Path} {log more : List Serving}

theorem last?_append : last? path (log ++ more) = (last? path more <|> last? path log) := by
  simp [last?, List.getLast?_append]

theorem lastDocument?_append :
    lastDocument? path (log ++ more) = (lastDocument? path more <|> lastDocument? path log) := by
  simp [lastDocument?, List.getLast?_append]

theorem filter_eq_nil_of_elsewhere (elsewhere : ∀ s ∈ more, s.path ≠ path) :
    more.filter (·.path = path) = [] :=
  List.filter_eq_nil_iff.2 fun s hs => by simpa using elsewhere s hs

theorem last?_of_elsewhere (elsewhere : ∀ s ∈ more, s.path ≠ path) : last? path more = none := by
  rw [last?, filter_eq_nil_of_elsewhere elsewhere]
  rfl

theorem lastDocument?_of_elsewhere (elsewhere : ∀ s ∈ more, s.path ≠ path) :
    lastDocument? path more = none := by
  rw [lastDocument?, filter_eq_nil_of_elsewhere elsewhere]
  rfl

end Serving

namespace StoreFile

/-- The file with the last document that was built for it in its buffer. -/
def served (log : List Serving) (file : StoreFile) : StoreFile :=
  { file with pending := Serving.lastDocument? file.path log <|> file.pending }

@[simp] theorem path_served (log : List Serving) (file : StoreFile) :
    (file.served log).path = file.path :=
  rfl

theorem pending_served (log : List Serving) (file : StoreFile) :
    (file.served log).pending = ((file.bare.served log).pending <|> file.pending) := by
  simp [served, bare]

end StoreFile

namespace Store

variable {W : Type} [ProviderHost W] {registry : Registry} {files : List StoreFile} {w : W}

/-- The attempt that refreshing a file comes to, if its providers have new data. -/
def attempt (registry : Registry) (file : StoreFile) (w : W) : List Serving :=
  match refresh registry file w with
  | .error _ _ => [⟨file.path, none⟩]
  | .ok (_, false) _ => []
  | .ok (file', true) _ => [⟨file.path, file'.pending⟩]

/-- The attempts that refreshing the files comes to, up to the first failure. -/
def servings (registry : Registry) : List StoreFile → W → List Serving
  | [], _ => []
  | file :: rest, w =>
    attempt registry file w ++
      match refresh registry file w with
      | .error _ _ => []
      | .ok _ w' => servings registry rest w'

/-- What refreshing one file comes to. -/
theorem refresh_cases (registry : Registry) (file : StoreFile) (w : W) :
    (registry.hasNewData file.id w = false ∧ refresh registry file w = .ok (file, false) w) ∨
      registry.hasNewData file.id w = true ∧
        ((∃ document w', registry.serialize file.id file.cipher w = .ok document w' ∧
            refresh registry file w = .ok (file.buffer document, true) w') ∨
          ∃ e w', registry.serialize file.id file.cipher w = .error e w' ∧
            refresh registry file w = .error e w') := by
  unfold refresh
  cases fresh : registry.hasNewData file.id w with
  | false => exact .inl ⟨rfl, rfl⟩
  | true =>
    right
    refine ⟨rfl, ?_⟩
    cases run : registry.serialize file.id file.cipher w with
    | ok document w' => exact .inl ⟨document, w', rfl, by simp⟩
    | error e w' => exact .inr ⟨e, w', rfl, by simp⟩

theorem path_of_mem_attempt {file : StoreFile} {s : Serving}
    (inside : s ∈ attempt registry file w) : s.path = file.path := by
  unfold attempt at inside
  split at inside
  all_goals simp only [List.mem_cons, List.not_mem_nil, or_false] at inside
  all_goals rw [inside]

theorem path_of_mem_servings {s : Serving} (inside : s ∈ servings registry files w) :
    ∃ file ∈ files, s.path = file.path := by
  induction files generalizing w with
  | nil => cases inside
  | cons file rest ih =>
    rw [servings, List.mem_append] at inside
    rcases inside with inside | inside
    · exact ⟨file, List.mem_cons_self, path_of_mem_attempt inside⟩
    · split at inside
      · cases inside
      · obtain ⟨other, hother, same⟩ := ih inside
        exact ⟨other, List.mem_cons_of_mem _ hother, same⟩

theorem servings_elsewhere {path : Path} (apart : ∀ file ∈ files, path ≠ file.path) :
    ∀ s ∈ servings registry files w, s.path ≠ path := by
  intro s inside
  obtain ⟨file, here, same⟩ := path_of_mem_servings inside
  exact same ▸ (apart file here).symm

/-- What the record of a refresh says of the first file, and of the others. -/
theorem lastDocument?_servings_cons {file : StoreFile} {rest : List StoreFile}
    {result : StoreFile × Bool} {w' : W} (apart : ∀ other ∈ rest, file.path ≠ other.path)
    (run : refresh registry file w = .ok result w') :
    Serving.lastDocument? file.path (servings registry (file :: rest) w) =
        Serving.lastDocument? file.path (attempt registry file w) ∧
      ∀ other ∈ rest, Serving.lastDocument? other.path (servings registry (file :: rest) w) =
        Serving.lastDocument? other.path (servings registry rest w') := by
  have log : servings registry (file :: rest) w =
      attempt registry file w ++ servings registry rest w' := by
    rw [servings, run]
  constructor
  · rw [log, Serving.lastDocument?_append,
      Serving.lastDocument?_of_elsewhere (servings_elsewhere apart)]
    rfl
  · intro other there
    have away : ∀ s ∈ attempt registry file w, s.path ≠ other.path := by
      intro s hs
      exact path_of_mem_attempt hs ▸ apart other there
    rw [log, Serving.lastDocument?_append, Serving.lastDocument?_of_elsewhere away,
      Option.orElse_eq_orElse, Option.orElse_eq_or, Option.or_none]

theorem refreshAll_cons (registry : Registry) (file : StoreFile) (rest : List StoreFile) (w : W) :
    refreshAll registry (file :: rest) w =
      match refresh registry file w with
      | .error e w' => (file :: rest, w', .error e)
      | .ok (file', isNew) w' =>
        let others := refreshAll registry rest w'
        (file' :: others.1, others.2.1, others.2.2.map (isNew || ·)) :=
  rfl

/-- A refresh that succeeds has refreshed the first file, and then the others. -/
theorem refreshAll_cons_ok {file : StoreFile} {rest : List StoreFile}
    (done : ∃ isNew, (refreshAll registry (file :: rest) w).2.2 = .ok isNew) :
    ∃ result w', refresh registry file w = .ok result w' ∧
      ∃ isNew, (refreshAll registry rest w').2.2 = .ok isNew := by
  rw [refreshAll_cons] at done
  cases run : refresh registry file w with
  | error e w' =>
    rw [run] at done
    obtain ⟨isNew, failed⟩ := done
    cases failed
  | ok result w' =>
    refine ⟨result, w', rfl, ?_⟩
    rw [run] at done
    obtain ⟨isNew, ok⟩ := done
    have ok : (refreshAll registry rest w').2.2.map (result.2 || ·) = .ok isNew := ok
    cases others : (refreshAll registry rest w').2.2 with
    | error e =>
      rw [others] at ok
      cases ok
    | ok isNew' => exact ⟨isNew', rfl⟩

/-- A refresh that succeeds has refreshed the earlier files, and then the later ones. -/
theorem refreshAll_append_ok {earlier later : List StoreFile} {w : W}
    (done : ∃ isNew, (refreshAll registry (earlier ++ later) w).2.2 = .ok isNew) :
    let first := refreshAll registry earlier w
    let second := refreshAll registry later first.2.1
    (∃ isNew, second.2.2 = .ok isNew) ∧
      (refreshAll registry (earlier ++ later) w).1 = first.1 ++ second.1 := by
  induction earlier generalizing w with
  | nil => exact ⟨done, rfl⟩
  | cons file rest ih =>
    obtain ⟨result, w', run, further⟩ := refreshAll_cons_ok done
    obtain ⟨second, files⟩ := ih further
    rw [List.cons_append, refreshAll_cons, refreshAll_cons, run]
    refine ⟨second, ?_⟩
    simp only [List.cons_append, files]

theorem bare_refresh {file file' : StoreFile} {isNew : Bool} {w' : W}
    (run : refresh registry file w = .ok (file', isNew) w') : file'.bare = file.bare := by
  rcases refresh_cases registry file w with ⟨-, h⟩ | ⟨-, ⟨document, w₁, -, h⟩ | ⟨e, w₁, -, h⟩⟩
  all_goals
    rw [run] at h
    cases h
  · rfl
  · rfl

theorem bare_refreshAll (registry : Registry) (files : List StoreFile) (w : W) :
    (refreshAll registry files w).1.map (·.bare) = files.map (·.bare) := by
  induction files generalizing w with
  | nil => rfl
  | cons file rest ih =>
    rw [refreshAll_cons]
    split
    · rfl
    · rename_i file' isNew w' run
      simp only [List.map_cons, bare_refresh run, ih]

/-- A file that was refreshed holds the document of the attempt, if there was a successful one. -/
theorem eq_served_of_refresh {file file' : StoreFile} {isNew : Bool} {w' : W}
    (run : refresh registry file w = .ok (file', isNew) w') :
    file' = file.served (attempt registry file w) := by
  rcases refresh_cases registry file w with ⟨-, h⟩ | ⟨-, ⟨document, w₁, -, h⟩ | ⟨e, w₁, -, h⟩⟩
  all_goals
    rw [run] at h
    cases h
  · simp [attempt, run, StoreFile.served, Serving.lastDocument?]
  · simp [attempt, run, StoreFile.served, Serving.lastDocument?, StoreFile.buffer]

/-- After a refresh every file holds the last document that was built for it. -/
theorem files_refreshAll (distinct : files.Pairwise fun file other => file.path ≠ other.path) :
    (refreshAll registry files w).1 = files.map (·.served (servings registry files w)) := by
  induction files generalizing w with
  | nil => rfl
  | cons file rest ih =>
    obtain ⟨apart, distinct'⟩ := List.pairwise_cons.1 distinct
    rw [refreshAll_cons]
    cases run : refresh registry file w with
    | error e w' =>
      -- the attempt for the first file failed, so nothing has been buffered
      have nothing (path : Path) :
          Serving.lastDocument? path (servings registry (file :: rest) w) = none := by
        simp [servings, attempt, run, Serving.lastDocument?, List.filter_cons]
      simp [StoreFile.served, nothing]
    | ok result w' =>
      obtain ⟨first, isNew⟩ := result
      obtain ⟨here, there⟩ := lastDocument?_servings_cons apart run
      simp only [List.map_cons, ih distinct']
      congr 1
      · rw [eq_served_of_refresh run, StoreFile.served, StoreFile.served, here]
      · apply List.map_congr_left
        intro other hother
        rw [StoreFile.served, StoreFile.served, there other hother]

/-! ### What a refresh does not look at -/

/-- What refreshing a file comes to is not decided by its buffer. -/
theorem refresh_bare_cases (registry : Registry) (file : StoreFile) (w : W) :
    (refresh registry file w = .ok (file, false) w ∧
        refresh registry file.bare w = .ok (file.bare, false) w) ∨
      (∃ document w', refresh registry file w = .ok (file.buffer document, true) w' ∧
        refresh registry file.bare w = .ok (file.bare.buffer document, true) w') ∨
      ∃ e w', refresh registry file w = .error e w' ∧
        refresh registry file.bare w = .error e w' := by
  have id : file.bare.id = file.id := rfl
  have cipher : file.bare.cipher = file.cipher := rfl
  rcases refresh_cases registry file w with
    ⟨idle, run⟩ | ⟨fresh, ⟨document, w', built, run⟩ | ⟨e, w', failed, run⟩⟩
  · exact .inl ⟨run, by simp [refresh, id, idle]⟩
  · exact .inr (.inl ⟨document, w', run, by simp [refresh, id, cipher, fresh, built]⟩)
  · exact .inr (.inr ⟨e, w', run, by simp [refresh, id, cipher, fresh, failed]⟩)

/-- Buffers decide neither what a refresh does to the providers nor which attempts it makes. -/
theorem refreshAll_bare (registry : Registry) (files : List StoreFile) (w : W) :
    (refreshAll registry (files.map (·.bare)) w).2 = (refreshAll registry files w).2 ∧
      servings registry (files.map (·.bare)) w = servings registry files w := by
  induction files generalizing w with
  | nil => exact ⟨rfl, rfl⟩
  | cons file rest ih =>
    rw [List.map_cons, refreshAll_cons, refreshAll_cons, servings, servings, attempt, attempt]
    rcases refresh_bare_cases registry file w with
      ⟨run, run'⟩ | ⟨document, w', run, run'⟩ | ⟨e, w', run, run'⟩
    · simp only [run, run', (ih w).1, (ih w).2]
      exact ⟨trivial, trivial⟩
    · simp only [run, run', (ih w').1, (ih w').2]
      exact ⟨trivial, rfl⟩
    · simp only [run, run']
      exact ⟨trivial, rfl⟩

end Store

end SectionStore
