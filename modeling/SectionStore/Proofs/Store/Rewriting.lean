import SectionStore.Proofs.Envelope.Admission
import SectionStore.Proofs.Provider.Loading
import SectionStore.Proofs.FileSystem.Target
import SectionStore.Store

/-!
# Writing what was read

Reading a file hands each of its providers the payload of its section, or nothing
(`Envelope.payloadOf`). Providers that hand the same payloads out again make an envelope of sections
that were read, and of empty ones. So the file can be written again exactly if the document that was
read holds admitted sections only (`rewritten_of_decode`).
-/

namespace SectionStore

open Markup

namespace Envelope

variable {envelope : Envelope} {name : String}

/-- What a provider has after it was handed its part of a document. Nothing counts as an empty
payload. -/
def payloadOf (envelope : Envelope) (name : String) : ByteArray :=
  (envelope.payloadOf? name).getD ByteArray.empty

theorem payloadOf_cases (envelope : Envelope) (name : String) :
    (∃ s ∈ envelope.sections, s.name = name ∧ envelope.payloadOf name = s.payload) ∨
      envelope.payloadOf name = ByteArray.empty := by
  rcases envelope.payloadOf?_cases name with ⟨s, here, same, payload⟩ | ⟨-, payload⟩
  · exact .inl ⟨s, here, same, by rw [payloadOf, payload]; rfl⟩
  · exact .inr (by rw [payloadOf, payload]; rfl)

/-- The sections that the named providers make of the payloads that a document has for them. -/
def handedBack (envelope : Envelope) (names : List String) : List Section :=
  names.map fun name => ⟨name, envelope.payloadOf name⟩

variable {octets : ByteArray} {names : List String}

theorem tokenized_handedBack (decoded : decode octets = .ok envelope)
    (named : ∀ name ∈ names, isName name.toList = true) :
    ∀ s ∈ envelope.handedBack names, ∃ lexemes, s.Tokenized lexemes := by
  intro s here
  obtain ⟨name, inside, rfl⟩ := List.mem_map.1 here
  rcases payloadOf_cases envelope name with ⟨t, there, rfl, payload⟩ | payload
  · rw [payload]
    exact tokenized_of_decode decoded there
  · rw [payload]
    exact ⟨[], Section.tokenized_empty (named name inside)⟩

theorem isAdmitted_empty (name : String) : Section.IsAdmitted ⟨name, ByteArray.empty⟩ :=
  ⟨[], _, rfl, .nil _, rfl, allOf_nil _⟩

/-- A section that is handed back and not admitted was read. -/
theorem mem_of_not_isAdmitted {s : Section} (here : s ∈ envelope.handedBack names)
    (foreign : ¬ s.IsAdmitted) : s ∈ envelope.sections := by
  obtain ⟨name, -, rfl⟩ := List.mem_map.1 here
  rcases payloadOf_cases envelope name with ⟨t, there, rfl, payload⟩ | payload
  · rw [payload]
    exact there
  · rw [payload] at foreign
    exact absurd (isAdmitted_empty name) foreign

/-- Every section of the named providers is handed back. -/
theorem mem_handedBack (distinct : (envelope.sections.map (·.name)).Nodup) {s : Section}
    (here : s ∈ envelope.sections) (known : s.name ∈ names) : s ∈ envelope.handedBack names :=
  List.mem_map.2 ⟨s.name, known, by rw [payloadOf, payloadOf?_of_mem distinct here]; rfl⟩

end Envelope

namespace Store

variable {W : Type} [ProviderHost W] {registry : Registry} {disk : Disk} {file : StoreFile}
  {octets : ByteArray} {envelope : Envelope} {w w' : W}

/-- A document that was handed to the providers of a file has been accepted. -/
theorem parse_of_readFile (read : file.read? disk = .ok (some octets))
    (run : readFile registry disk file w = .ok () w') :
    ∃ envelope, registry.parse file.id octets = .ok envelope := by
  cases parsed : registry.parse file.id octets with
  | ok envelope => exact ⟨envelope, rfl⟩
  | error e =>
    have refused : registry.deserialize (some octets) file.id file.cipher w = .error e w := by
      simp only [Registry.deserialize, parsed]
      rfl
    simp only [readFile, read, refused] at run
    cases run

/-- A file with new data is refreshed with what encoding the collected sections gives. -/
theorem refresh_of_collect {sections : List Section} (new : registry.hasNewData file.id w = true)
    (collected : Registry.collect file.cipher (registry.namesOf file.id) w = .ok sections w') :
    refresh registry file w = match Envelope.encode ⟨.current, sections⟩ with
      | .ok document => .ok (file.buffer document, true) w'
      | .error e => .error (.envelope file.id e) w' := by
  simp only [refresh, new, if_true, Registry.serialize, run_bind, collected]
  cases Envelope.encode ⟨.current, sections⟩ <;> rfl

/-- A file that was read is refreshed with the payloads that were read, exactly if they are
admitted. -/
theorem refresh_handedBack (reached : registry.Reached)
    (parsed : registry.parse file.id octets = .ok envelope)
    (new : registry.hasNewData file.id w = true)
    (collected : Registry.collect file.cipher (registry.namesOf file.id) w =
      .ok (envelope.handedBack (registry.namesOf file.id)) w') :
    ((∀ s ∈ envelope.sections, s.IsAdmitted) ∧
        ∃ document, refresh registry file w = .ok (file.buffer document, true) w') ∨
      ∃ s ∈ envelope.sections, ¬ s.IsAdmitted ∧ ∃ e, refresh registry file w =
        .error (.envelope file.id (.malformedPayload s.name (.markup e))) w' := by
  obtain ⟨decoded, known, distinct⟩ := Registry.parse_eq_ok_iff.1 parsed
  have tokenized := @Envelope.tokenized_handedBack _ _ (registry.namesOf file.id) decoded
    fun _ here => reached.isName_of_mem_namesOf here
  rw [refresh_of_collect new collected]
  rcases @Envelope.encode_cases ⟨.current, envelope.handedBack _⟩ tokenized with
    ⟨admitted, document, run, -⟩ | ⟨before, s, after, e, split, -, foreign, run⟩
  · left
    refine ⟨fun s here => admitted s ?_, document, by rw [run]⟩
    exact Envelope.mem_handedBack distinct here (known s here)
  · right
    have here : s ∈ envelope.handedBack (registry.namesOf file.id) := by
      have split : envelope.handedBack (registry.namesOf file.id) = before ++ s :: after := split
      simp [split]
    exact ⟨s, Envelope.mem_of_not_isAdmitted here foreign, foreign, e, by rw [run]⟩

/-- An envelope that was decoded is encoded, and decodes again, if its sections are admitted.
Otherwise it is not encoded, and a section that is not admitted is blamed. The same holds of a file
whose providers took the document in and hand the same payloads out when the file is refreshed. -/
theorem rewritten_of_decode (decoded : Envelope.decode octets = .ok envelope) :
    (((∀ s ∈ envelope.sections, s.IsAdmitted) ∧
          ∃ octets', envelope.encode = .ok octets' ∧ Envelope.decode octets' = .ok envelope) ∨
        ∃ s ∈ envelope.sections, ¬ s.IsAdmitted ∧
          ∃ e, envelope.encode = .error (.malformedPayload s.name (.markup e))) ∧
      ∀ {W : Type} [ProviderHost W] {registry : Registry} {disk : Disk} {file : StoreFile}
          {w₀ w₁ w w' : W}, registry.Reached →
        file.read? disk = .ok (some octets) →
        readFile registry disk file w₀ = .ok () w₁ →
        registry.hasNewData file.id w = true →
        Registry.collect file.cipher (registry.namesOf file.id) w =
          .ok (envelope.handedBack (registry.namesOf file.id)) w' →
        ((∀ s ∈ envelope.sections, s.IsAdmitted) ∧
            ∃ document, refresh registry file w = .ok (file.buffer document, true) w') ∨
          ∃ s ∈ envelope.sections, ¬ s.IsAdmitted ∧ ∃ e, refresh registry file w =
            .error (.envelope file.id (.malformedPayload s.name (.markup e))) w' := by
  constructor
  · rcases Envelope.encode_cases fun _ here => Envelope.tokenized_of_decode decoded here with
      written | ⟨before, s, after, e, split, -, foreign, run⟩
    · exact .inl written
    · exact .inr ⟨s, by simp [split], foreign, e, run⟩
  · intro W _ registry disk file w₀ w₁ w w' reached read run new collected
    obtain ⟨other, parsed⟩ := parse_of_readFile read run
    have same : envelope = other := by
      have decoded' := (Registry.parse_eq_ok_iff.1 parsed).1
      rw [decoded] at decoded'
      exact Except.ok.inj decoded'
    exact refresh_handedBack reached (same ▸ parsed) new collected

/-- A document with one section. -/
def documentOf (payload : List Char) : ByteArray :=
  Utf8.encode (Envelope.header .current ++ (Section.element ['A'] payload ++ ['\n']) ++
    closeTag Envelope.rootName ++ ['\n'])

/-- The file that the document is in. -/
def documentFile : StoreFile :=
  .new ⟨"s.xml"⟩ .sharedGeneral none

/-- A device with the file on it. -/
def documentDisk (octets : ByteArray) : Disk :=
  .ofFiles (FileSystem.new.insert ["s.xml"] (.file octets 0o600))

theorem read?_documentFile (octets : ByteArray) :
    documentFile.read? (documentDisk octets) = .ok (some octets) := by
  have found : (FileSystem.new.insert ["s.xml"] (.file octets 0o600)).content? ⟨"s.xml"⟩ =
      some octets := rfl
  have read := FileSystem.read_of_content? found
  simp [StoreFile.read?, Disk.read?, documentDisk, documentFile, StoreFile.new, Disk.ofFiles, read]

theorem isAdmitted_digit : Section.IsAdmitted ⟨"A", Utf8.encode ['1']⟩ := by
  have step : (Reader.ofText ['1']).nextScanned =
      .ok (some ⟨.text ['1'], ['1'], []⟩) ((Reader.ofText ['1']).pass ⟨.text ['1'], ['1'], []⟩ []) :=
    rfl
  exact ⟨[⟨.text ['1'], ['1']⟩], _, Utf8.decode_encode _, .single step, rfl, fun l here => by
    rw [List.mem_singleton.1 here]
    decide +kernel⟩

theorem decode_documentOf_digit : Envelope.decode (documentOf ['1']) =
    .ok ⟨.current, [⟨"A", Utf8.encode ['1']⟩]⟩ := by
  have line : [(⟨"A", Utf8.encode ['1']⟩ : Section)].mapM Section.line =
      .ok [Section.element ['A'] ['1'] ++ ['\n']] := by decide +kernel
  have decoded := @Envelope.decode_document .current _ _ line
  simpa [documentOf] using decoded

/-- A section without markup in it is written again, by the codec and by its provider. -/
theorem rewritten_documentOf_digit :
    ∃ envelope octets document w', Envelope.decode (documentOf ['1']) = .ok envelope ∧
      envelope.encode = .ok octets ∧ Envelope.decode octets = .ok envelope ∧
      refresh Registry.threeShared documentFile
        (Memory.empty.update "A" (·.set (Utf8.encode ['1']))) =
          .ok (documentFile.buffer document, true) w' := by
  have decoded := decode_documentOf_digit
  obtain ⟨codec, providers⟩ := rewritten_of_decode decoded
  have asks : Registry.Asks Registry.threeShared .sharedGeneral (some (documentOf ['1'])) _ _ :=
    .document decoded (by decide) (by decide)
  obtain ⟨w₁, taken⟩ : ∃ w₁, Registry.threeShared.deserialize (some (documentOf ['1']))
      documentFile.id documentFile.cipher Memory.empty = .ok () w₁ := by
    rw [documentFile, StoreFile.new, asks.deserialize]
    exact ⟨_, rfl⟩
  have run : readFile Registry.threeShared (documentDisk (documentOf ['1'])) documentFile
      Memory.empty = .ok () w₁ := by
    simp only [readFile, read?_documentFile, taken]
  have provided := providers Registry.reached_threeShared (read?_documentFile _) run
    (w := Memory.empty.update "A" (·.set (Utf8.encode ['1']))) rfl rfl
  have all : ∀ s ∈ [(⟨"A", Utf8.encode ['1']⟩ : Section)], s.IsAdmitted :=
    List.forall_mem_singleton.2 isAdmitted_digit
  rcases codec with ⟨-, octets, encoded, again⟩ | ⟨s, here, foreign, -⟩
  · rcases provided with ⟨-, document, refreshed⟩ | ⟨s, here, foreign, -⟩
    · exact ⟨_, octets, document, _, decoded, encoded, again, refreshed⟩
    · exact absurd (all s here) foreign
  · exact absurd (all s here) foreign

/-- A reference that stands for no character is read as part of a payload, and never written. -/
theorem decode_not_encode_unresolved :
    ∃ envelope, Envelope.decode (documentOf ['&', 'x', ';']) = .ok envelope ∧
      ¬ ∃ octets, envelope.encode = .ok octets := by
  have decoded : Envelope.decode (documentOf ['&', 'x', ';']) =
      .ok ⟨.current, [⟨"A", Utf8.encode ['&', 'x', ';']⟩]⟩ := by decide +kernel
  have refused : (Envelope.encode ⟨.current, [⟨"A", Utf8.encode ['&', 'x', ';']⟩]⟩).isOk = false := by
    decide +kernel
  refine ⟨_, decoded, ?_⟩
  rintro ⟨octets, encoded⟩
  rw [encoded] at refused
  cases refused

end Store

end SectionStore
