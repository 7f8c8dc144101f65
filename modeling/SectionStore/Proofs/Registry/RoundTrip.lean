import SectionStore.Proofs.Registry.Delivery

/-!
# What providers get back from their document

A document is built from the payloads that the providers of a file hand out, one after the other in
the order of registration (`HandsOut`). Such a document asks for one call of each provider, in the
same order and with the same octets (`asks_of_encode`). So whatever happens to the providers in
between, handing the document to them calls each one with what it handed out, up to the first that
fails, and nothing but a provider can fail (`hands_back_of_serialize`).
-/

namespace SectionStore.Registry

variable {W : Type} [ProviderHost W] {registry : Registry} {file : FileId}
  {cipher : Option Cipher} {sections : List Section} {document : ByteArray} {w w' : W}

/-- Providers hand out the payloads of some sections, one after the other. -/
inductive HandsOut (cipher : Option Cipher) : List Section → W → W → Prop where
  | nil (w : W) : HandsOut cipher [] w w
  | cons {s : Section} {rest : List Section} {w w₁ w₂ : W}
      (hook : ProviderHost.serialize s.name cipher w = .ok s.payload w₁)
      (others : HandsOut cipher rest w₁ w₂) : HandsOut cipher (s :: rest) w w₂

theorem collect_cons (cipher : Option Cipher) (name : String) (rest : List String) (w : W) :
    collect cipher (name :: rest) w =
      match ProviderHost.serialize name cipher w with
      | .error e w₁ => .error (.provider name e) w₁
      | .ok payload w₁ =>
        match collect cipher rest w₁ with
        | .error e w₂ => .error e w₂
        | .ok others w₂ => .ok (⟨name, payload⟩ :: others) w₂ := by
  cases hook : ProviderHost.serialize name cipher w with
  | error e w₁ => simp only [collect, Bind.bind, EStateM.bind, hook]
  | ok payload w₁ =>
    simp only [collect, Bind.bind, EStateM.bind, hook]
    cases collect cipher rest w₁ <;> rfl

/-- Collecting sections is having the payloads of the named providers handed out. -/
theorem collect_eq_ok_iff {names : List String} :
    collect cipher names w = .ok sections w' ↔
      sections.map (·.name) = names ∧ HandsOut cipher sections w w' := by
  induction names generalizing sections w with
  | nil =>
    constructor
    · intro run
      cases run
      exact ⟨rfl, .nil _⟩
    · rintro ⟨none, handed⟩
      cases List.map_eq_nil_iff.1 none
      cases handed
      rfl
  | cons name rest ih =>
    rw [collect_cons]
    constructor
    · intro run
      split at run
      · cases run
      rename_i payload w₁ hook
      split at run
      · cases run
      rename_i others w₂ further
      cases run
      obtain ⟨named, handed⟩ := ih.1 further
      exact ⟨by rw [List.map_cons, named], .cons hook handed⟩
    · rintro ⟨named, handed⟩
      cases handed with
      | nil => cases named
      | cons hook others =>
        obtain ⟨rfl, further⟩ := List.cons.inj named
        rw [hook]
        simp only [ih.2 ⟨further, others⟩]

/-- A document that is built encodes what the providers of the file handed out. -/
theorem serialize_eq_ok (built : registry.serialize file cipher w = .ok document w') :
    ∃ sections, sections.map (·.name) = registry.namesOf file ∧ HandsOut cipher sections w w' ∧
      Envelope.encode ⟨.current, sections⟩ = .ok document := by
  obtain ⟨sections, w₁, collected, ended⟩ := run_bind_eq_ok_iff.1 built
  obtain ⟨named, handed⟩ := collect_eq_ok_iff.1 collected
  cases written : Envelope.encode ⟨.current, sections⟩ with
  | error e =>
    rw [written] at ended
    cases ended
  | ok octets =>
    rw [written] at ended
    cases ended
    exact ⟨sections, named, handed, written⟩

/-- A document with a section for each provider of the file asks for the calls of their owners, and
for no others. -/
theorem asks_of_encode (reached : registry.Reached)
    (named : sections.map (·.name) = registry.namesOf file)
    (written : Envelope.encode ⟨.current, sections⟩ = .ok document) :
    Asks registry file (some document) (some .current) (sections.map .ofSection) := by
  obtain ⟨lines, hlines, rfl⟩ := Envelope.encode_eq_ok written
  have known : ∀ s ∈ sections, s.name ∈ registry.namesOf file := fun s here =>
    named ▸ List.mem_map_of_mem here
  have distinct : (sections.map (·.name)).Nodup := named ▸ reached.nodup_namesOf file
  have decoded := @Envelope.decode_document .current _ _ hlines
  have asks := Asks.document decoded known distinct
  have nobody : (registry.namesOf file).filter (· ∉ sections.map (·.name)) = [] := by
    rw [named]
    exact List.filter_eq_nil_iff.2 fun name here => by simpa using here
  rw [nobody] at asks
  simpa using asks

/-- If a document is built for a file, each of its providers has handed out one payload, and gets
just this payload back, in the order of registration and with the current version. If none of the
hooks fails, that is all that happens. Otherwise the calls end with the one that fails, each
provider of the file is reset, and the error is that of the provider. -/
theorem hands_back_of_serialize (reached : registry.Reached)
    (built : registry.serialize file cipher w = .ok document w') :
    ∃ sections, sections.map (·.name) = registry.namesOf file ∧ (registry.namesOf file).Nodup ∧
      HandsOut cipher sections w w' ∧
      ∀ later : W,
        Hands registry (some document) file cipher later (.ok ())
            (sections.map fun s =>
              .deserialize s.name (some s.payload) (some .current) cipher none) ∨
          ∃ before failing after e, sections = before ++ failing :: after ∧
            Hands registry (some document) file cipher later (.error (.provider failing.name e))
              (before.map (fun s =>
                  .deserialize s.name (some s.payload) (some .current) cipher none) ++
                .deserialize failing.name (some failing.payload) (some .current) cipher (some e) ::
                  (registry.namesOf file).map .reset) := by
  obtain ⟨sections, named, handed, written⟩ := serialize_eq_ok built
  have asks := asks_of_encode reached named written
  refine ⟨sections, named, reached.nodup_namesOf file, handed, fun later => ?_⟩
  rcases deliver_cases registry file (some .current) cipher (sections.map .ofSection) later [] with
    ⟨w₁, run, recorded⟩ | ⟨before, failing, after, e, w₁, split, run, recorded⟩
  · refine .inl ⟨w₁, ?_, ?_⟩
    · rw [asks.deserialize, run]
      rfl
    · rw [asks.deserialize, recorded, List.map_map]
      rfl
  · obtain ⟨first, others, rfl, rfl, rest⟩ := List.map_eq_append_iff.1 split
    obtain ⟨s, last, rfl, rfl, rfl⟩ := List.map_eq_cons_iff.1 rest
    refine .inr ⟨first, s, last, e, rfl, w₁, ?_, ?_⟩
    · rw [asks.deserialize, run]
      rfl
    · rw [asks.deserialize, recorded, List.map_map]
      rfl

/-- Providers of which the first holds markup with the tag of the second, and the second nothing. -/
def nestedPayloads : Memory :=
  let m := Memory.empty.update "A" (·.set (Utf8.encode ['<', 'B', '>', '1', '<', '/', 'B', '>']))
  (m.update "C" (·.set (Utf8.encode ['2']))).update "D" (·.set (Utf8.encode ['3']))

/-- The markup comes back to the provider that it came from, and the empty payload is no missing
one. The provider of the other file is not called. -/
theorem hands_back_of_serialize_nested :
    ∃ document w', threeShared.serialize .sharedGeneral none nestedPayloads = .ok document w' ∧
      Hands threeShared (some document) .sharedGeneral none w' (.ok ())
        [.deserialize "A" (some (Utf8.encode ['<', 'B', '>', '1', '<', '/', 'B', '>']))
            (some .current) none none,
          .deserialize "B" (some ByteArray.empty) (some .current) none none,
          .deserialize "C" (some (Utf8.encode ['2'])) (some .current) none none] := by
  have accepted : (match threeShared.serialize .sharedGeneral none nestedPayloads with
      | .ok _ _ => true
      | .error _ _ => false) = true := by decide +kernel
  cases built : threeShared.serialize .sharedGeneral none nestedPayloads with
  | error e w' => simp [built] at accepted
  | ok document w' =>
    refine ⟨document, w', rfl, ?_⟩
    obtain ⟨sections, named, handed, written⟩ := serialize_eq_ok built
    obtain ⟨handedBack, named', -, handed', outcome⟩ :=
      hands_back_of_serialize reached_threeShared built
    -- both are what the providers hold
    have held : collect none (threeShared.namesOf .sharedGeneral) nestedPayloads =
        .ok [⟨"A", _⟩, ⟨"B", _⟩, ⟨"C", _⟩] _ := rfl
    have collected := collect_eq_ok_iff.2 ⟨named, handed⟩
    have collected' := collect_eq_ok_iff.2 ⟨named', handed'⟩
    rw [held] at collected collected'
    cases collected
    cases collected'
    rcases outcome _ with hands | ⟨before, failing, after, e, -, later, run, -⟩
    · exact hands
    · rw [(asks_of_encode reached_threeShared rfl written).deserialize] at run
      cases run

end SectionStore.Registry
