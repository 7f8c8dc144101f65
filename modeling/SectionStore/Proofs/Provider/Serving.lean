import SectionStore.Provider.Memory
import SectionStore.Registry.Dispatch

/-!
# Providers in memory being served

Serializing a file asks its providers one after the other. Providers that keep their payload as it
is hand it out and count as written, up to the first one that fails; no payload changes, and no
other provider notices (`Memory.Served`). If the document is built, it holds the payloads of all of
them and none is left with new data (`Registry.serialize_cases`).
-/

namespace SectionStore

namespace Memory

/-- A host before and after some of its providers were asked for their payloads. -/
structure Served (names : List String) (old new : Memory) : Prop where
  payload : ∀ name, (new.provider name).payload = (old.provider name).payload
  sealing : ∀ name, (new.provider name).sealing = (old.provider name).sealing
  other : ∀ name, name ∉ names → new.provider name = old.provider name

theorem Served.refl (names : List String) (m : Memory) : Served names m m :=
  ⟨fun _ => rfl, fun _ => rfl, fun _ _ => rfl⟩

theorem Served.trans {names : List String} {a b c : Memory} (first : Served names a b)
    (second : Served names b c) : Served names a c :=
  ⟨fun name => (second.payload name).trans (first.payload name),
    fun name => (second.sealing name).trans (first.sealing name),
    fun name h => (second.other name h).trans (first.other name h)⟩

theorem Served.mono {names more : List String} {old new : Memory} (served : Served names old new)
    (subset : names ⊆ more) : Served more old new :=
  ⟨served.payload, served.sealing, fun name h => served.other name fun inside => h (subset inside)⟩

/-- The sections of named providers, with their payloads as they are. -/
def sections (m : Memory) (names : List String) : List Section :=
  names.map fun name => ⟨name, (m.provider name).payload⟩

theorem sections_congr {old new : Memory} {names : List String}
    (same : ∀ name ∈ names, (new.provider name).payload = (old.provider name).payload) :
    new.sections names = old.sections names :=
  List.map_congr_left fun name h => by rw [same name h]

/-- No named provider holds new data. -/
def Clean (m : Memory) (names : List String) : Prop :=
  ∀ name ∈ names, (m.provider name).dirty = false

/-- The named providers keep their payload as it is. -/
def Plain (m : Memory) (names : List String) : Prop :=
  ∀ name ∈ names, (m.provider name).sealing = false

variable {m : Memory} {name : String} {cipher : Option Cipher}

/-- A provider that keeps its payload as it is hands it out, or fails and stays as it is. -/
theorem serialize_cases (cipher : Option Cipher) (plain : (m.provider name).sealing = false) :
    (∃ m', ProviderHost.serialize name cipher m = .ok (m.provider name).payload m' ∧
        Served [name] m m' ∧ (m'.provider name).dirty = false) ∨
      ∃ e m', ProviderHost.serialize name cipher m = .error e m' ∧ Served [name] m m' := by
  have put (p : MemoryProvider) (payload : p.payload = (m.provider name).payload)
      (sealing : p.sealing = (m.provider name).sealing) : Served [name] m (m.put name p) := by
    constructor
    · intro other
      rw [provider_put]
      split <;> simp_all
    · intro other
      rw [provider_put]
      split <;> simp_all
    · intro other outside
      rw [provider_put, if_neg (by simpa using outside)]
  cases planned : (m.provider name).plan.serialize with
  | some e =>
    refine .inr ⟨e, m.put name (m.provider name), ?_, put _ rfl rfl⟩
    simp only [ProviderHost.serialize, within, MemoryProvider.serialize, planned]
  | none =>
    refine .inl ⟨m.put name (m.provider name).afterSerialize, ?_, put _ rfl rfl, ?_⟩
    · have handed : (m.provider name).sealPayload cipher = .ok (m.provider name).payload := by
        simp [MemoryProvider.sealPayload, plain]
      simp only [ProviderHost.serialize, within, MemoryProvider.serialize, planned, handed]
    · rw [provider_put, if_pos rfl]
      rfl

end Memory

namespace Registry

open Memory

variable {m : Memory}

/-- What collecting the sections of providers comes to. -/
theorem collect_cases (cipher : Option Cipher) {names : List String} (plain : m.Plain names) :
    (∃ m', collect cipher names m = .ok (m.sections names) m' ∧ Served names m m' ∧
        m'.Clean names) ∨
      ∃ e m', collect cipher names m = .error e m' ∧ Served names m m' := by
  induction names generalizing m with
  | nil => exact .inl ⟨m, rfl, .refl _ _, fun _ h => by cases h⟩
  | cons name rest ih =>
    have here : [name] ⊆ name :: rest := by simp
    rcases serialize_cases cipher (plain name List.mem_cons_self) with
      ⟨m₁, run, served, clean⟩ | ⟨e, m₁, run, served⟩
    · have plain₁ : m₁.Plain rest := fun other h =>
        (served.sealing other).trans (plain other (List.mem_cons_of_mem _ h))
      rcases ih plain₁ with ⟨m₂, run₂, served₂, clean₂⟩ | ⟨e, m₂, run₂, served₂⟩
      · left
        refine ⟨m₂, ?_, (served.mono here).trans (served₂.mono (List.subset_cons_self _ _)), ?_⟩
        · simp only [collect, Bind.bind, EStateM.bind, run, run₂]
          rw [sections_congr fun other _ => served.payload other]
          rfl
        · intro other h
          rcases List.mem_cons.1 h with rfl | inside
          · by_cases again : other ∈ rest
            · exact clean₂ other again
            · rw [served₂.other other again]
              exact clean
          · exact clean₂ other inside
      · right
        refine ⟨e, m₂, ?_, (served.mono here).trans (served₂.mono (List.subset_cons_self _ _))⟩
        simp only [collect, Bind.bind, EStateM.bind, run, run₂]
    · right
      refine ⟨.provider name e, m₁, ?_, served.mono here⟩
      simp only [collect, Bind.bind, EStateM.bind, run]

variable {registry : Registry} {file : FileId} {cipher : Option Cipher}

/-- What building the document of a file comes to. -/
theorem serialize_cases (cipher : Option Cipher) (plain : m.Plain (registry.namesOf file)) :
    (∃ document m', registry.serialize file cipher m = .ok document m' ∧
        Served (registry.namesOf file) m m' ∧ m'.Clean (registry.namesOf file) ∧
        Envelope.encode ⟨.current, m.sections (registry.namesOf file)⟩ = .ok document) ∨
      ∃ e m', registry.serialize file cipher m = .error e m' ∧
        Served (registry.namesOf file) m m' := by
  rcases collect_cases cipher plain with ⟨m', run, served, clean⟩ | ⟨e, m', run, served⟩
  · cases written : Envelope.encode ⟨.current, m.sections (registry.namesOf file)⟩ with
    | ok document =>
      refine .inl ⟨document, m', ?_, served, clean, rfl⟩
      simp only [serialize, Bind.bind, EStateM.bind, run, written]
      rfl
    | error e =>
      refine .inr ⟨.envelope file e, m', ?_, served⟩
      simp only [serialize, Bind.bind, EStateM.bind, run, written]
      rfl
  · refine .inr ⟨e, m', ?_, served⟩
    simp only [serialize, Bind.bind, EStateM.bind, run]

/-- Whoever has no new data in a file is clean. -/
theorem clean_of_not_hasNewData (idle : registry.hasNewData file m = false) :
    m.Clean (registry.namesOf file) := by
  intro name h
  have := List.any_eq_false.1 idle name h
  simpa [ProviderHost.hasNewData] using this

end Registry

end SectionStore
