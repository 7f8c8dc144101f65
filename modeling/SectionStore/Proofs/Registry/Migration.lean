import SectionStore.Proofs.Envelope.Payloads
import SectionStore.Proofs.Provider.Serving
import SectionStore.Proofs.Registry.RoundTrip
import SectionStore.Proofs.Store.Rewriting

/-!
# Documents of earlier versions

Documents of all versions are read, and those of the current version are written. Providers that
keep their payloads as they are (`MemoryProvider.IsReliable`) carry the content of an old document
over into a new one: a section for each provider of the file, in the order of registration, with
what the old document had for it. Reading the new document gives every provider what it has already
(`migrated_of_deserialize`).
-/

namespace SectionStore

open Markup

namespace Envelope

/-- If the sections of a document pass the checks, so do those that are made of it for providers. -/
theorem passesCheck_handedBack {envelope : Envelope} (names : List String)
    (passes : ∀ s ∈ envelope.sections, s.PassesCheck) :
    ∀ s ∈ envelope.handedBack names, s.PassesCheck := by
  intro s here
  obtain ⟨name, -, rfl⟩ := List.mem_map.1 here
  rcases payloadOf_cases envelope name with ⟨t, there, rfl, payload⟩ | payload
  · rw [payload]
    exact passes t there
  · rw [payload]
    exact Section.passesCheck_empty name

end Envelope

/-! ### Providers that never fail -/

namespace MemoryProvider

/-- The provider keeps its payload as it is, accepts any other, and never fails. -/
structure IsReliable (p : MemoryProvider) : Prop where
  sealing : p.sealing = false
  typed : p.typed = false
  serializes : p.plan.serialize = none
  deserializes : p.plan.deserialize = none

variable {p : MemoryProvider}

theorem IsReliable.afterSerialize (reliable : p.IsReliable) : p.afterSerialize.IsReliable :=
  ⟨reliable.sealing, reliable.typed, reliable.serializes, reliable.deserializes⟩

theorem IsReliable.afterDelivery (reliable : p.IsReliable) (data : Option ByteArray)
    (version : Option DataVersion) : (p.afterDelivery data version).IsReliable :=
  ⟨reliable.sealing, reliable.typed, reliable.serializes, reliable.deserializes⟩

end MemoryProvider

namespace Memory

open MemoryProvider

variable {m : Memory} {name : String} {names : List String} {cipher : Option Cipher}

/-- The named providers never fail. -/
def Reliable (m : Memory) (names : List String) : Prop :=
  ∀ name ∈ names, (m.provider name).IsReliable

theorem Reliable.plain (reliable : m.Reliable names) : m.Plain names :=
  fun name inside => (reliable name inside).sealing

theorem Reliable.update {f : MemoryProvider → MemoryProvider} (reliable : m.Reliable names)
    (keeps : ∀ p, p.IsReliable → (f p).IsReliable) (name : String) :
    (m.update name f).Reliable names := by
  intro other inside
  rw [Memory.update, provider_put]
  split
  · rename_i same
    exact keeps _ (same ▸ reliable other inside)
  · exact reliable other inside

theorem serialize_of_isReliable (reliable : (m.provider name).IsReliable) :
    ProviderHost.serialize name cipher m =
      .ok (m.provider name).payload (m.update name (·.afterSerialize)) := by
  have handed : (m.provider name).sealPayload cipher = .ok (m.provider name).payload := by
    simp [MemoryProvider.sealPayload, reliable.sealing]
  simp only [ProviderHost.serialize, within, MemoryProvider.serialize, reliable.serializes, handed]
  rfl

theorem deserialize_of_isReliable (reliable : (m.provider name).IsReliable)
    (content : Option ByteArray) (version : Option DataVersion) :
    ProviderHost.deserialize name content version cipher m =
      .ok () (m.update name (·.afterDelivery content version)) := by
  have planned : (m.provider name).plan.onDelivery? content = none := by
    simp [FailurePlan.onDelivery?, reliable.deserializes]
  have opened : content.mapM ((m.provider name).openPayload cipher) = .ok content := by
    cases content with
    | none => rfl
    | some data =>
      refine mapM_some_eq_ok_iff.2 ⟨data, ?_, rfl⟩
      simp [MemoryProvider.openPayload, reliable.sealing, reliable.typed]
  simp only [ProviderHost.deserialize, within, MemoryProvider.deserialize, planned, opened]
  rfl

end Memory

namespace Registry

open Memory MemoryProvider

variable {registry : Registry} {file : FileId} {cipher : Option Cipher} {m m₁ : Memory}

/-- Reliable providers hand out what they hold, and stay reliable. -/
theorem collect_of_reliable {names more : List String} (cipher : Option Cipher)
    (subset : names ⊆ more) (reliable : m.Reliable more) :
    ∃ m', collect cipher names m = .ok (m.sections names) m' ∧ m'.Reliable more := by
  induction names generalizing m with
  | nil => exact ⟨m, rfl, reliable⟩
  | cons name rest ih =>
    obtain ⟨here, subset⟩ := List.cons_subset.1 subset
    obtain ⟨m', further, reliable'⟩ := ih subset
      (reliable.update (fun p => IsReliable.afterSerialize) name)
    have same : (m.update name (·.afterSerialize)).sections rest = m.sections rest := by
      apply sections_congr
      intro other _
      rw [Memory.update, provider_put]
      split
      · rename_i same
        rw [same]
        rfl
      · rfl
    refine ⟨m', ?_, reliable'⟩
    rw [collect_cons, serialize_of_isReliable (reliable name here)]
    simp only [further, same]
    rfl

/-- Reliable providers take in all that they are handed. -/
theorem deliver_of_reliable {names : List String} {plan : List PlannedCall}
    (version : Option DataVersion) (cipher : Option Cipher)
    (calls : ∀ call ∈ plan, call.name ∈ names) (reliable : m.Reliable names) :
    ∃ m', registry.deliver file version cipher plan m = .ok () m' := by
  induction plan generalizing m with
  | nil => exact ⟨m, rfl⟩
  | cons call rest ih =>
    obtain ⟨here, calls⟩ := List.forall_mem_cons.1 calls
    obtain ⟨m', further⟩ := ih calls (reliable.update
      (fun p reliable => reliable.afterDelivery call.content version) call.name)
    refine ⟨m', ?_⟩
    rw [deliver_cons, deserialize_of_isReliable (reliable _ here)]
    exact further

/-- Reliable providers whose payloads pass the checks are serialized, and keep their payloads. -/
theorem serialize_of_reliable (reached : registry.Reached) (cipher : Option Cipher)
    (reliable : m.Reliable (registry.namesOf file))
    (passes : ∀ s ∈ m.sections (registry.namesOf file), s.PassesCheck) :
    ∃ document m', registry.serialize file cipher m = .ok document m' ∧
      Envelope.encode ⟨.current, m.sections (registry.namesOf file)⟩ = .ok document ∧
      m'.Reliable (registry.namesOf file) ∧
      ∀ name, (m'.provider name).payload = (m.provider name).payload := by
  obtain ⟨m', collected, reliable'⟩ := collect_of_reliable cipher (List.Subset.refl _) reliable
  have named : ∀ s ∈ m.sections (registry.namesOf file), isName s.name.toList = true := by
    intro s here
    obtain ⟨name, inside, rfl⟩ := List.mem_map.1 here
    exact reached.isName_of_mem_namesOf inside
  obtain ⟨document, written⟩ := Envelope.exists_encode .current passes named
  have run : registry.serialize file cipher m = .ok document m' := by
    rw [serialize, run_bind, collected]
    simp only [written]
    rfl
  refine ⟨document, m', run, written, reliable', ?_⟩
  rcases serialize_cases cipher reliable.plain with
    ⟨_, _, run', served, -⟩ | ⟨_, _, run', served⟩
  all_goals
    rw [run] at run'
    cases run'
  exact served.payload

/-- Reliable providers that get back what they hold are left with it. -/
theorem deserialize_of_reliable (reached : registry.Reached) {document : ByteArray}
    (cipher : Option Cipher) (reliable : m.Reliable (registry.namesOf file))
    (written : Envelope.encode ⟨.current, m.sections (registry.namesOf file)⟩ = .ok document) :
    ∃ m', registry.deserialize (some document) file cipher m = .ok () m' ∧
      ∀ name, (m'.provider name).payload = (m.provider name).payload := by
  have named : (m.sections (registry.namesOf file)).map (·.name) = registry.namesOf file := by
    rw [Memory.sections, List.map_map]
    exact List.map_id _
  have asks := asks_of_encode reached named written
  have calls := asks.perm reached
  obtain ⟨m', run⟩ : ∃ m', registry.deliver file (some .current) cipher
      ((m.sections (registry.namesOf file)).map PlannedCall.ofSection) m = .ok () m' :=
    deliver_of_reliable (some .current) cipher
      (fun call inside => calls.mem_iff.1 (List.mem_map_of_mem inside)) reliable
  obtain ⟨loaded, others⟩ := deliver_eq_ok (calls.nodup_iff.2 (reached.nodup_namesOf file)) run
  refine ⟨m', (asks.deserialize cipher m).trans run, fun name => ?_⟩
  by_cases inside : name ∈ registry.namesOf file
  · have planned : (⟨name, some (m.provider name).payload⟩ : PlannedCall) ∈
        (m.sections (registry.namesOf file)).map PlannedCall.ofSection :=
      List.mem_map.2 ⟨_, List.mem_map_of_mem inside, rfl⟩
    obtain ⟨opened, taken, now⟩ := loaded _ planned
    rw [now, mapM_openPayload_of_plain (reliable name inside).sealing taken]
    rfl
  · rw [others name fun called => inside (calls.mem_iff.1 called)]

/-- What reliable providers have taken in from a document is what it had for them. -/
theorem sections_of_deserialize (reached : registry.Reached) {octets : ByteArray}
    (reliable : m.Reliable (registry.namesOf file))
    (accepted : registry.deserialize (some octets) file cipher m = .ok () m₁) :
    ∃ envelope, Envelope.decode octets = .ok envelope ∧
      m₁.sections (registry.namesOf file) = envelope.handedBack (registry.namesOf file) ∧
      m₁.Reliable (registry.namesOf file) := by
  rcases deserialize_cases reached (some octets) cipher m with
    ⟨found, m', run, decodes, loaded, -⟩ | ⟨e, m', run, -⟩
  · rw [accepted] at run
    cases run
    obtain ⟨envelope, decoded, rfl⟩ := mapM_some_eq_ok_iff.1 decodes
    have taken : ∀ name ∈ registry.namesOf file, m₁.provider name =
        (m.provider name).afterDelivery (envelope.payloadOf? name) (some envelope.version) := by
      intro name inside
      obtain ⟨opened, opens, now⟩ := loaded name inside
      rw [now, mapM_openPayload_of_plain (reliable name inside).sealing opens]
      rfl
    refine ⟨envelope, decoded, List.map_congr_left fun name inside => ?_, fun name inside => ?_⟩
    · rw [taken name inside]
      rfl
    · rw [taken name inside]
      exact (reliable name inside).afterDelivery _ _
  · rw [accepted] at run
    cases run

/-- A document of any version that reliable providers have taken in, and whose sections pass the
checks, is followed by one of the current version. It has a section for each provider of the file,
in the order of registration, with what the old document had for it, or empty. Reading it changes
nobody's payload. -/
theorem migrated_of_deserialize (reached : registry.Reached) {octets : ByteArray}
    (reliable : m.Reliable (registry.namesOf file))
    (accepted : registry.deserialize (some octets) file cipher m = .ok () m₁) :
    ∃ envelope, Envelope.decode octets = .ok envelope ∧
      ((∀ s ∈ envelope.sections, s.PassesCheck) →
        ∃ document m₂ m₃, registry.serialize file cipher m₁ = .ok document m₂ ∧
          Envelope.decode document =
            .ok ⟨.current, (registry.namesOf file).map fun name =>
              ⟨name, (envelope.payloadOf? name).getD ByteArray.empty⟩⟩ ∧
          registry.deserialize (some document) file cipher m₂ = .ok () m₃ ∧
          ∀ name, (m₂.provider name).payload = (m₁.provider name).payload ∧
            (m₃.provider name).payload = (m₁.provider name).payload) := by
  obtain ⟨envelope, decoded, taken, reliable₁⟩ := sections_of_deserialize reached reliable accepted
  refine ⟨envelope, decoded, fun passes => ?_⟩
  have passes₁ := taken ▸ Envelope.passesCheck_handedBack (registry.namesOf file) passes
  obtain ⟨document, m₂, built, written, reliable₂, kept⟩ :=
    serialize_of_reliable reached cipher reliable₁ passes₁
  have written₂ : Envelope.encode ⟨.current, m₂.sections (registry.namesOf file)⟩ = .ok document :=
    sections_congr (fun name _ => kept name) ▸ written
  obtain ⟨m₃, read, kept₃⟩ := deserialize_of_reliable reached cipher reliable₂ written₂
  refine ⟨document, m₂, m₃, built, ?_, read, fun name => ⟨kept name, ?_⟩⟩
  · obtain ⟨lines, hlines, rfl⟩ := Envelope.encode_eq_ok written
    rw [taken] at hlines
    exact Envelope.decode_document hlines
  · rw [kept₃ name, kept name]

/-- A document of the version with an integrity block, which has something in it here. The section
of the last provider comes first, and one is missing. -/
def obsoleteDocument : ByteArray :=
  Utf8.encode (openTag Envelope.rootName ++ intElement Envelope.versionName 2 ++
    Section.element Envelope.integrityName (Section.element ['A'] ['0']) ++
    Section.element ['C'] ['3'] ++ Section.element ['A'] (emptyTag ['B']) ++
    closeTag Envelope.rootName)

/-- The block is dropped, the sections come in the order of registration, and the missing one is
added. -/
theorem migrated_of_deserialize_obsoleteDocument :
    ∃ m₁ document m₂,
      threeShared.deserialize (some obsoleteDocument) .sharedGeneral none Memory.empty = .ok () m₁ ∧
      threeShared.serialize .sharedGeneral none m₁ = .ok document m₂ ∧
      Envelope.decode document = .ok ⟨.current, [⟨"A", Utf8.encode (emptyTag ['B'])⟩,
        ⟨"B", ByteArray.empty⟩, ⟨"C", Utf8.encode ['3']⟩]⟩ := by
  have decoded : Envelope.decode obsoleteDocument = .ok ⟨.integrity,
      [⟨"C", Utf8.encode ['3']⟩, ⟨"A", Utf8.encode (emptyTag ['B'])⟩]⟩ := by decide +kernel
  have asks : Asks threeShared .sharedGeneral (some obsoleteDocument) _ _ :=
    .document decoded (by decide) (by decide)
  obtain ⟨m₁, accepted⟩ : ∃ m₁, threeShared.deserialize (some obsoleteDocument) .sharedGeneral none
      Memory.empty = .ok () m₁ := by
    rw [asks.deserialize]
    exact ⟨_, rfl⟩
  have reliable : Memory.empty.Reliable (threeShared.namesOf .sharedGeneral) :=
    fun _ _ => ⟨rfl, rfl, rfl, rfl⟩
  obtain ⟨envelope, decoded', migrates⟩ :=
    migrated_of_deserialize reached_threeShared reliable accepted
  rw [decoded] at decoded'
  cases decoded'
  obtain ⟨document, m₂, m₃, built, new, -⟩ := migrates fun s here => by
    rcases List.mem_cons.1 here with rfl | here
    · exact ⟨['3'], Utf8.decode_encode _, by decide +kernel⟩
    · rw [List.mem_singleton.1 here]
      exact ⟨emptyTag ['B'], Utf8.decode_encode _, by decide +kernel⟩
  exact ⟨m₁, document, m₂, accepted, built, new⟩

end Registry

end SectionStore
