import SectionStore.Proofs.Envelope.RoundTrip
import SectionStore.Proofs.Markup.Values

/-!
# Payloads

A document is written for any sections that have names of tags and payloads that pass the check
(`exists_encode`), and for no others (`passesCheck_of_encode`). Typed values are one kind of such
payloads: written by one side and read by the other, they come through a document unchanged, in
order and under their names (`values_through_document`).
-/

namespace SectionStore

open Markup

/-! ### What may be written -/

namespace Section

/-- The payload is text that may stand in a section. -/
def PassesCheck (s : Section) : Prop :=
  ∃ text, Utf8.decode s.payload = .ok text ∧ checkFragment text = .ok ()

theorem passesCheck_empty (name : String) : PassesCheck ⟨name, ByteArray.empty⟩ :=
  ⟨[], rfl, checkFragment_written []⟩

theorem PassesCheck.exists_line {s : Section} (passes : s.PassesCheck)
    (named : isName s.name.toList = true) : ∃ line, s.line = .ok line := by
  obtain ⟨text, decoded, checked⟩ := passes
  refine ⟨element s.name.toList text ++ ['\n'], ?_⟩
  simp only [line, check, if_pos named, decoded, checked]
  rfl

end Section

namespace Envelope

theorem exists_lines {sections : List Section} (passes : ∀ s ∈ sections, s.PassesCheck)
    (named : ∀ s ∈ sections, isName s.name.toList = true) :
    ∃ lines, sections.mapM Section.line = .ok lines := by
  induction sections with
  | nil => exact ⟨[], rfl⟩
  | cons s rest ih =>
    obtain ⟨here, passes⟩ := List.forall_mem_cons.1 passes
    obtain ⟨name, named⟩ := List.forall_mem_cons.1 named
    obtain ⟨line, first⟩ := here.exists_line name
    obtain ⟨lines, others⟩ := ih passes named
    refine ⟨line :: lines, ?_⟩
    rw [List.mapM_cons, first, others]
    rfl

/-- Sections that pass the checks are encoded. -/
theorem exists_encode (version : DataVersion) {sections : List Section}
    (passes : ∀ s ∈ sections, s.PassesCheck)
    (named : ∀ s ∈ sections, isName s.name.toList = true) :
    ∃ document, encode ⟨version, sections⟩ = .ok document := by
  obtain ⟨lines, written⟩ := exists_lines passes named
  refine ⟨Utf8.encode (header version ++ lines.flatten ++ closeTag rootName ++ ['\n']), ?_⟩
  rw [encode, written]
  rfl

theorem passesCheck_of_lines {sections : List Section} {lines : List (List Char)}
    (written : sections.mapM Section.line = .ok lines) :
    ∀ s ∈ sections, s.PassesCheck ∧ isName s.name.toList = true := by
  induction sections generalizing lines with
  | nil => exact List.forall_mem_nil _
  | cons s rest ih =>
    obtain ⟨line, others, first, last, rfl⟩ := mapM_line_cons written
    obtain ⟨payload, named, text, checked, rfl⟩ := line_eq_ok first
    refine List.forall_mem_cons.2 ⟨⟨⟨payload, ?_, checked⟩, named⟩, ih last⟩
    rw [text, Utf8.decode_encode]

/-- Only sections that pass the checks are encoded. -/
theorem passesCheck_of_encode {envelope : Envelope} {octets : ByteArray}
    (written : envelope.encode = .ok octets) :
    ∀ s ∈ envelope.sections, s.PassesCheck ∧ isName s.name.toList = true := by
  obtain ⟨lines, run, -⟩ := encode_eq_ok written
  exact passesCheck_of_lines run

/-- A section is added to a document that can be written. -/
theorem exists_encode_insert {version : DataVersion} {before after : List Section} {s : Section}
    {octets : ByteArray} (written : encode ⟨version, before ++ after⟩ = .ok octets)
    (passes : s.PassesCheck) (named : isName s.name.toList = true) :
    ∃ document, encode ⟨version, before ++ s :: after⟩ = .ok document := by
  have all : ∀ t ∈ before ++ s :: after, t.PassesCheck ∧ isName t.name.toList = true := by
    intro t here
    rcases List.mem_append.1 here with first | last
    · exact passesCheck_of_encode written t (List.mem_append_left _ first)
    · rcases List.mem_cons.1 last with rfl | last
      · exact ⟨passes, named⟩
      · exact passesCheck_of_encode written t (List.mem_append_right _ last)
  exact exists_encode version (fun t here => (all t here).1) fun t here => (all t here).2

/-! ### Typed values -/

/-- The section that holds typed values. -/
def valuesSection (name : String) (values : List (List Char × Value)) : Section :=
  ⟨name, Utf8.encode (writtenValues values)⟩

theorem passesCheck_valuesSection (name : String) (values : List (List Char × Value)) :
    (valuesSection name values).PassesCheck :=
  ⟨writtenValues values, Utf8.decode_encode _, checkFragment_written values⟩

/-- Typed values, among any other sections of a document, are accepted by the encoder, and from the
decoded payload they are read back, in order and under their names: from the payload alone, and also
by a reader that has come to them within any other elements. -/
theorem values_through_document {version : DataVersion} {before after : List Section}
    {name : String} {values : List (List Char × Value)} {octets : ByteArray}
    (others : encode ⟨version, before ++ after⟩ = .ok octets)
    (named : isName name.toList = true) (fits : ∀ v ∈ values, v.2.Fits) :
    ∃ document payload,
      encode ⟨version, before ++ valuesSection name values :: after⟩ = .ok document ∧
      decode document = .ok ⟨version, before ++ valuesSection name values :: after⟩ ∧
      Utf8.decode (valuesSection name values).payload = .ok payload ∧
      valuesOf payload = .ok values ∧
      ∀ (r : Reader) (tag rest : List Char) (outer : List (List Char)), isName tag = true →
        r.At (payload ++ (closeTag tag ++ rest)) (tag :: outer) → r.readValues = .ok values := by
  obtain ⟨document, written⟩ :=
    exists_encode_insert others (passesCheck_valuesSection name values) named
  exact ⟨document, writtenValues values, written, decode_of_encode written, Utf8.decode_encode _,
    valuesOf_written fits, fun _ _ _ _ closes here => Reader.readValues_within fits closes here⟩

/-- Values of each type, at the limits, under names and with texts that would be markup. -/
def awkwardValues : List (List Char × Value) :=
  [(['"', '>', '<'], .int Integer.int64Min), ([], .int Integer.int64Max), (['&', ';'], .boolean true),
   ([], .boolean false), ([' ', '\n'], .null), (['\u0000', 'é', '\''], .string []),
   (['#'], .string [' ', '\t']), (['n'], .string [']', ']', '>', '<', '/', 'A', '>', '&', '\u0007'])]

theorem values_through_document_awkward : ∃ others : ByteArray,
    encode ⟨.integrity, nestedEnvelope.sections⟩ = .ok others ∧
      isName "A".toList = true ∧ (∀ v ∈ awkwardValues, v.2.Fits) ∧
      ∃ document payload,
        encode ⟨.integrity, valuesSection "A" awkwardValues :: nestedEnvelope.sections⟩ =
          .ok document ∧
        decode document =
          .ok ⟨.integrity, valuesSection "A" awkwardValues :: nestedEnvelope.sections⟩ ∧
        Utf8.decode (valuesSection "A" awkwardValues).payload = .ok payload ∧
        valuesOf payload = .ok awkwardValues := by
  have accepted : (encode ⟨.integrity, nestedEnvelope.sections⟩).isOk = true := by decide +kernel
  have named : isName "A".toList = true := by decide
  have fits : ∀ v ∈ awkwardValues, v.2.Fits := by decide
  cases others : encode ⟨.integrity, nestedEnvelope.sections⟩ with
  | error e => simp [others, Except.isOk, Except.toBool] at accepted
  | ok octets =>
    have others' : encode ⟨.integrity, [] ++ nestedEnvelope.sections⟩ = .ok octets := others
    obtain ⟨document, payload, written, decoded, text, read, -⟩ :=
      values_through_document others' named fits
    exact ⟨octets, rfl, named, fits, document, payload, written, decoded, text, read⟩

end Envelope

end SectionStore
