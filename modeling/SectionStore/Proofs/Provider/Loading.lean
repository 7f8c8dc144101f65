import SectionStore.Proofs.Registry.Delivery

/-!
# Providers in memory being loaded

Handing a file to its providers ends in one of three ways. If nothing fails, each of them has opened
the payload that the document has for it, or knows that there is none (`Memory.Loaded`). If a
provider fails, all providers of the file are reset (`Memory.Wiped`); and if the document is
refused, nobody has noticed (`Registry.deserialize_cases`). Providers of other files are left alone
in any case.
-/

namespace SectionStore

/-! ### Payloads in a document -/

namespace Envelope

variable {envelope : Envelope} {name : String}

/-- The payload that a document has for a provider, if there is a section of its name. -/
def payloadOf? (envelope : Envelope) (name : String) : Option ByteArray :=
  (envelope.find? name).map (·.payload)

theorem payloadOf?_cases (envelope : Envelope) (name : String) :
    (∃ s ∈ envelope.sections, s.name = name ∧ envelope.payloadOf? name = some s.payload) ∨
      name ∉ envelope.sections.map (·.name) ∧ envelope.payloadOf? name = none := by
  cases found : envelope.find? name with
  | none =>
    refine .inr ⟨fun inside => ?_, by rw [payloadOf?, found]; rfl⟩
    obtain ⟨s, here, same⟩ := List.mem_map.1 inside
    exact absurd same (by simpa using List.find?_eq_none.1 found s here)
  | some s =>
    refine .inl ⟨s, List.mem_of_find?_eq_some found, ?_, by rw [payloadOf?, found]; rfl⟩
    simpa using List.find?_some found

/-- Where no name comes twice, each section is the one of its name. -/
theorem payloadOf?_of_mem (distinct : (envelope.sections.map (·.name)).Nodup) {s : Section}
    (here : s ∈ envelope.sections) : envelope.payloadOf? s.name = some s.payload := by
  rcases payloadOf?_cases envelope s.name with ⟨t, there, same, payload⟩ | ⟨none, -⟩
  · rw [payload, List.inj_on_of_nodup_map distinct there here same]
  · exact absurd (List.mem_map_of_mem here) none

end Envelope

/-! ### Payloads that may be absent -/

theorem mapM_some_eq_ok_iff {ε α β : Type} {f : α → Except ε β} {a : α} {found : Option β} :
    (some a).mapM f = .ok found ↔ ∃ b, f a = .ok b ∧ found = some b := by
  show (f a).map some = .ok found ↔ _
  cases f a with
  | error e =>
    constructor
    · intro taken
      cases taken
    · rintro ⟨b, taken, -⟩
      cases taken
  | ok b =>
    constructor
    · intro taken
      cases taken
      exact ⟨b, rfl, rfl⟩
    · rintro ⟨b', taken, rfl⟩
      cases taken
      rfl

/-! ### What becomes of providers -/

namespace MemoryProvider

/-- The provider holds no data. -/
structure IsBlank (p : MemoryProvider) : Prop where
  payload : p.payload = ByteArray.empty
  dirty : p.dirty = false

/-- Both providers take payloads in the same way. -/
structure Alike (old new : MemoryProvider) : Prop where
  sealing : new.sealing = old.sealing
  typed : new.typed = old.typed

theorem Alike.refl (p : MemoryProvider) : Alike p p :=
  ⟨rfl, rfl⟩

theorem Alike.trans {a b c : MemoryProvider} (first : Alike a b) (second : Alike b c) : Alike a c :=
  ⟨second.sealing.trans first.sealing, second.typed.trans first.typed⟩

theorem Alike.openPayload {old new : MemoryProvider} (alike : Alike old new)
    (cipher : Option Cipher) : new.openPayload cipher = old.openPayload cipher := by
  funext data
  simp only [MemoryProvider.openPayload, alike.sealing, alike.typed]

/-- A provider that keeps its payload as it is takes in what it is handed. -/
theorem openPayload_of_plain {p : MemoryProvider} {cipher : Option Cipher} {data opened : ByteArray}
    (plain : p.sealing = false) (run : p.openPayload cipher data = .ok opened) : opened = data := by
  simp only [MemoryProvider.openPayload, plain] at run
  split at run
  · split at run
    · cases run
    · rename_i text _
      cases values : Markup.valuesOf text with
      | error e =>
        rw [values] at run
        cases run
      | ok _ =>
        rw [values] at run
        cases run
        rfl
  · cases run
    rfl

theorem mapM_openPayload_of_plain {p : MemoryProvider} {cipher : Option Cipher}
    {data opened : Option ByteArray} (plain : p.sealing = false)
    (run : data.mapM (p.openPayload cipher) = .ok opened) : opened = data := by
  cases data with
  | none => exact (Except.ok.inj run).symm
  | some data =>
    obtain ⟨opened, taken, rfl⟩ := mapM_some_eq_ok_iff.1 run
    rw [openPayload_of_plain plain taken]

end MemoryProvider

namespace Memory

open MemoryProvider

variable {names : List String} {m m' : Memory}

theorem put_self (m : Memory) (name : String) : m.put name (m.provider name) = m := by
  obtain ⟨provider⟩ := m
  simp only [put, Memory.mk.injEq]
  funext other
  split <;> simp_all

/-- A host before and after some of its providers lost their data. -/
structure Wiped (names : List String) (old new : Memory) : Prop where
  blank : ∀ name ∈ names, (new.provider name).IsBlank
  alike : ∀ name, Alike (old.provider name) (new.provider name)
  other : ∀ name, name ∉ names → new.provider name = old.provider name

theorem wiped_resetNames (names : List String) (m : Memory) :
    Wiped names m (Registry.resetNames names m) := by
  induction names generalizing m with
  | nil => exact ⟨fun _ h => (by cases h), fun _ => .refl _, fun _ _ => rfl⟩
  | cons name rest ih =>
    have first : Registry.resetNames (name :: rest) m =
        Registry.resetNames rest (m.put name (m.provider name).reset) := rfl
    rw [first]
    have later := ih (m.put name (m.provider name).reset)
    constructor
    · intro other inside
      by_cases again : other ∈ rest
      · exact later.blank other again
      · obtain rfl : other = name := (List.mem_cons.1 inside).resolve_right again
        rw [later.other other again, provider_put, if_pos rfl]
        exact ⟨rfl, rfl⟩
    · intro other
      refine .trans ?_ (later.alike other)
      rw [provider_put]
      split
      · rename_i here
        exact here ▸ ⟨rfl, rfl⟩
      · exact .refl _
    · intro other outside
      obtain ⟨differ, outside⟩ := not_or.1 (mt List.mem_cons.2 outside)
      rw [later.other other outside, provider_put, if_neg differ]

/-- Each of some providers has opened the payload that it was handed, or knows that there is none. -/
def Loaded (names : List String) (cipher : Option Cipher) (found : Option Envelope)
    (old new : Memory) : Prop :=
  ∀ name ∈ names, ∃ opened,
    (found.bind (·.payloadOf? name)).mapM ((old.provider name).openPayload cipher) = .ok opened ∧
      new.provider name = (old.provider name).afterDelivery opened (found.map (·.version))

/-- A provider takes in what it is handed, or fails and stays as it is. -/
theorem deserialize_cases (name : String) (content : Option ByteArray) (version : Option DataVersion)
    (cipher : Option Cipher) (m : Memory) :
    (∃ opened, content.mapM ((m.provider name).openPayload cipher) = .ok opened ∧
        ProviderHost.deserialize name content version cipher m =
          .ok () (m.put name ((m.provider name).afterDelivery opened version))) ∨
      ∃ e, ProviderHost.deserialize name content version cipher m = .error e m := by
  cases planned : (m.provider name).plan.onDelivery? content with
  | some e =>
    right
    refine ⟨e, ?_⟩
    simp only [ProviderHost.deserialize, within, MemoryProvider.deserialize, planned, put_self]
  | none =>
    cases opened : content.mapM ((m.provider name).openPayload cipher) with
    | error e =>
      right
      refine ⟨e, ?_⟩
      simp only [ProviderHost.deserialize, within, MemoryProvider.deserialize, planned, opened,
        put_self]
    | ok payload =>
      left
      refine ⟨payload, rfl, ?_⟩
      simp only [ProviderHost.deserialize, within, MemoryProvider.deserialize, planned, opened]

end Memory

namespace Registry

open Memory MemoryProvider

variable {registry : Registry} {file : FileId} {version : Option DataVersion}
  {cipher : Option Cipher} {plan : List PlannedCall} {m m' : Memory}

theorem wiped_reset (registry : Registry) (file : FileId) (m : Memory) :
    Wiped (registry.namesOf file) m (registry.reset file m) :=
  wiped_resetNames _ _

/-- Calls of different providers change one after the other, and nobody else. -/
theorem deliver_eq_ok (distinct : (plan.map (·.name)).Nodup)
    (run : registry.deliver file version cipher plan m = .ok () m') :
    (∀ call ∈ plan, ∃ opened,
        call.content.mapM ((m.provider call.name).openPayload cipher) = .ok opened ∧
          m'.provider call.name = (m.provider call.name).afterDelivery opened version) ∧
      ∀ name, name ∉ plan.map (·.name) → m'.provider name = m.provider name := by
  induction plan generalizing m with
  | nil =>
    cases run
    exact ⟨fun _ h => (by cases h), fun _ _ => rfl⟩
  | cons call rest ih =>
    obtain ⟨alone, distinct⟩ := List.nodup_cons.1 distinct
    rw [deliver_cons] at run
    rcases deserialize_cases call.name call.content version cipher m with
      ⟨opened, taken, hook⟩ | ⟨e, hook⟩
    · rw [hook] at run
      obtain ⟨loaded, others⟩ := ih distinct run
      refine ⟨?_, fun name outside => ?_⟩
      · intro other inside
        rcases List.mem_cons.1 inside with rfl | inside
        · refine ⟨opened, taken, ?_⟩
          rw [others _ alone, provider_put, if_pos rfl]
        · have differ : other.name ≠ call.name :=
            fun same => alone (List.mem_map.2 ⟨other, inside, same⟩)
          obtain ⟨opened', taken', now⟩ := loaded other inside
          rw [provider_put, if_neg differ] at taken' now
          exact ⟨opened', taken', now⟩
      · obtain ⟨differ, outside⟩ := not_or.1 (mt List.mem_cons.2 outside)
        rw [others name outside, provider_put, if_neg differ]
    · rw [hook] at run
      cases run

/-- The first failure resets the providers of the file. -/
theorem deliver_eq_error {e : RegistryError}
    (calls : ∀ call ∈ plan, call.name ∈ registry.namesOf file)
    (run : registry.deliver file version cipher plan m = .error e m') :
    Wiped (registry.namesOf file) m m' := by
  induction plan generalizing m with
  | nil => cases run
  | cons call rest ih =>
    obtain ⟨here, calls⟩ := List.forall_mem_cons.1 calls
    rw [deliver_cons] at run
    rcases deserialize_cases call.name call.content version cipher m with
      ⟨opened, -, hook⟩ | ⟨e, hook⟩
    · rw [hook] at run
      have wiped := ih calls run
      refine ⟨wiped.blank, fun name => .trans ?_ (wiped.alike name), fun name outside => ?_⟩
      · rw [provider_put]
        split
        · rename_i same
          exact same ▸ ⟨rfl, rfl⟩
        · exact .refl _
      · have differ : name ≠ call.name := fun same => outside (same ▸ here)
        rw [wiped.other name outside, provider_put, if_neg differ]
    · rw [hook] at run
      cases run
      exact wiped_reset registry file m

/-- What a file asks for calls each provider with what the document has for it. -/
theorem Asks.mem_plan {content : Option ByteArray} (asks : Asks registry file content version plan) :
    ∃ found, content.mapM Envelope.decode = .ok found ∧ version = found.map (·.version) ∧
      ∀ name ∈ registry.namesOf file, ⟨name, found.bind (·.payloadOf? name)⟩ ∈ plan := by
  cases asks with
  | absent =>
    exact ⟨none, rfl, rfl, fun name inside => List.mem_map.2 ⟨name, inside, rfl⟩⟩
  | @document octets envelope decoded known distinct =>
    refine ⟨some envelope, ?_, rfl, fun name inside => List.mem_append.2 ?_⟩
    · exact mapM_some_eq_ok_iff.2 ⟨envelope, decoded, rfl⟩
    · rw [Option.bind_some]
      rcases envelope.payloadOf?_cases name with ⟨s, here, rfl, payload⟩ | ⟨outside, payload⟩
      · exact .inl (List.mem_map.2 ⟨s, here, by rw [payload]; rfl⟩)
      · refine .inr (List.mem_map.2 ⟨name, List.mem_filter.2 ⟨inside, ?_⟩, by rw [payload]; rfl⟩)
        simpa using outside

/-- Handing a file to its providers loads them, resets them, or does nothing. -/
theorem deserialize_cases (reached : registry.Reached) (content : Option ByteArray)
    (cipher : Option Cipher) (m : Memory) :
    (∃ found m', registry.deserialize content file cipher m = .ok () m' ∧
        content.mapM Envelope.decode = .ok found ∧
        Loaded (registry.namesOf file) cipher found m m' ∧
        ∀ name, name ∉ registry.namesOf file → m'.provider name = m.provider name) ∨
      ∃ e m', registry.deserialize content file cipher m = .error e m' ∧
        (m' = m ∨ Wiped (registry.namesOf file) m m') := by
  by_cases asked : ∃ version plan, Asks registry file content version plan
  · obtain ⟨version, plan, asks⟩ := asked
    have calls := asks.perm reached
    rw [asks.deserialize]
    cases run : registry.deliver file version cipher plan m with
    | ok _ m' =>
      obtain ⟨found, decoded, rfl, planned⟩ := asks.mem_plan
      have distinct := calls.nodup_iff.2 (reached.nodup_namesOf file)
      obtain ⟨loaded, others⟩ := deliver_eq_ok distinct run
      refine .inl ⟨found, m', rfl, decoded, fun name inside => loaded _ (planned name inside), ?_⟩
      exact fun name outside => others name fun inside => outside (calls.mem_iff.1 inside)
    | error e m' =>
      refine .inr ⟨e, m', rfl, .inr (deliver_eq_error (fun call inside => ?_) run)⟩
      exact calls.mem_iff.1 (List.mem_map_of_mem inside)
  · have nothing : ∀ version plan, ¬ Asks registry file content version plan :=
      fun version plan asks => asked ⟨version, plan, asks⟩
    obtain ⟨octets, e, rfl, refused⟩ := refused_of_not_asks nothing
    refine .inr ⟨e, m, ?_, .inl rfl⟩
    rw [Registry.deserialize, refused]
    rfl

end Registry

end SectionStore
