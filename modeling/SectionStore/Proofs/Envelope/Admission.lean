import SectionStore.Proofs.Envelope.Grammar
import SectionStore.Proofs.Markup.Fragment

/-!
# What was read, written back

A section of a document that was decoded has a name that a tag can have, and content with balanced
tags (`tokenized_of_decode`). The decoder looks no further, and the encoder does: it refuses a
payload with a declaration in it, or with a reference that stands for no character
(`Section.IsAdmitted`). These are all the envelopes that can be read but not written back
(`encode_cases`).
-/

namespace SectionStore

open Markup

namespace Section

/-- The payload is text that can be read token by token to its end, and each of the tokens may stand
in a payload. -/
def IsAdmitted (s : Section) : Prop :=
  ∃ lexemes r, Utf8.decode s.payload = .ok (spell lexemes) ∧
    (Reader.ofText (spell lexemes)).Reads lexemes r ∧ r.rest = [] ∧
    AllOf Token.isAdmitted lexemes

/-- The section has the name of a tag, and its payload is content that is spelled by the tokens. -/
structure Tokenized (s : Section) (lexemes : List Lexeme) : Prop where
  named : isName s.name.toList = true
  text : s.payload = Utf8.encode (spell lexemes)
  reads : ∃ r, (Reader.ofText (spell lexemes)).Reads lexemes r ∧ r.rest = [] ∧ r.opened = []

variable {s : Section} {lexemes : List Lexeme}

/-- Without a payload there are no tokens. -/
theorem tokenized_empty {name : String} (named : isName name.toList = true) :
    Tokenized ⟨name, ByteArray.empty⟩ [] :=
  ⟨named, rfl, _, .nil _, rfl, rfl⟩

theorem Tokenized.isAdmitted_iff (tokenized : s.Tokenized lexemes) :
    s.IsAdmitted ↔ AllOf Token.isAdmitted lexemes := by
  have decoded : Utf8.decode s.payload = .ok (spell lexemes) := by
    rw [tokenized.text, Utf8.decode_encode]
  obtain ⟨r, reads, ended, -⟩ := tokenized.reads
  constructor
  · rintro ⟨others, r', decoded', reads', ended', admitted⟩
    rw [decoded] at decoded'
    rw [← Except.ok.inj decoded'] at reads'
    have same : lexemes = others :=
      (reads'.prefix_of_ended ended' reads).eq_of_length_le
        (reads.prefix_of_ended ended reads').length_le
    exact same ▸ admitted
  · intro admitted
    exact ⟨lexemes, r, decoded, reads, ended, admitted⟩

/-- The check of a section refuses nothing but tokens that must not stand in a payload. -/
theorem Tokenized.check_cases (tokenized : s.Tokenized lexemes) :
    (s.IsAdmitted ∧ s.check = .ok (spell lexemes)) ∨
      ¬ s.IsAdmitted ∧ ∃ e, s.check = .error (.malformedPayload s.name (.markup e)) := by
  have decoded : Utf8.decode s.payload = .ok (spell lexemes) := by
    rw [tokenized.text, Utf8.decode_encode]
  obtain ⟨r, reads, ended, closed⟩ := tokenized.reads
  have passes := Reader.checkRest_eq_ok_iff reads ended closed
  rw [← tokenized.isAdmitted_iff] at passes
  simp only [check, if_pos tokenized.named, decoded]
  cases checked : checkFragment (spell lexemes) with
  | ok _ => exact .inl ⟨passes.1 checked, rfl⟩
  | error e =>
    refine .inr ⟨fun admitted => ?_, e, rfl⟩
    rw [checkFragment, passes.2 admitted] at checked
    cases checked

end Section

namespace Envelope

variable {octets : ByteArray} {envelope : Envelope}

/-! ### The sections of a document -/

/-- The content of an element can be read where it stands alone. -/
theorem tokenized_of_child {tag : StartTag} {content : List Char} {lexemes : List Lexeme}
    {whole whole' : Reader} (child : Child tag content lexemes)
    (reads : whole.Reads lexemes whole') : ∃ inner, (sectionOf tag content).Tokenized inner := by
  obtain ⟨-, element⟩ := child
  obtain ⟨r₁, -, reads⟩ := Reader.reads_append_iff.1 reads
  have named : isName (sectionOf tag content).name.toList = true := by
    obtain ⟨opening, others, rfl⟩ := element.eq_cons
    cases reads.form_of_mem List.mem_cons_self with
    | opening named => simpa [sectionOf] using named
  cases element with
  | empty => exact ⟨[], Section.tokenized_empty named⟩
  | filled opens inside =>
    obtain ⟨r₂, -, reads⟩ := Reader.reads_cons_iff.1 reads
    obtain ⟨r₃, reads, -⟩ := Reader.reads_append_iff.1 reads
    exact ⟨_, named, rfl, reads.alone inside⟩

theorem tokenized_of_body {sections : List Section} {lexemes : List Lexeme} {r r' : Reader}
    (body : Body sections lexemes) (reads : r.Reads lexemes r') {s : Section}
    (here : s ∈ sections) : ∃ inner, s.Tokenized inner := by
  induction body generalizing r with
  | done => cases here
  | another child rest ih =>
    obtain ⟨r₁, first, others⟩ := Reader.reads_append_iff.1 reads
    rcases List.mem_cons.1 here with rfl | here
    · exact tokenized_of_child child first
    · exact ih others here

/-- Every section of a document has the name of a tag and balanced content. -/
theorem tokenized_of_decode (decoded : decode octets = .ok envelope) {s : Section}
    (here : s ∈ envelope.sections) : ∃ lexemes, s.Tokenized lexemes := by
  obtain ⟨lexemes, r, -, reads, -, document⟩ := document_of_decode decoded
  obtain ⟨-, body⟩ := document
  obtain ⟨r₁, -, reads⟩ := Reader.reads_append_iff.1 reads
  exact tokenized_of_body body reads here

/-! ### Writing such sections -/

/-- Sections with names of tags and balanced content are written, up to the first of them that is not
admitted. -/
theorem mapM_line_cases {ss : List Section} (all : ∀ s ∈ ss, ∃ lexemes, s.Tokenized lexemes) :
    ((∀ s ∈ ss, s.IsAdmitted) ∧ ∃ lines, ss.mapM Section.line = .ok lines) ∨
      ∃ before s after e, ss = before ++ s :: after ∧ (∀ b ∈ before, b.IsAdmitted) ∧
        ¬ s.IsAdmitted ∧
        ss.mapM Section.line = .error (.malformedPayload s.name (.markup e)) := by
  induction ss with
  | nil => exact .inl ⟨List.forall_mem_nil _, [], rfl⟩
  | cons s ss ih =>
    obtain ⟨⟨lexemes, tokenized⟩, others⟩ := List.forall_mem_cons.1 all
    rw [List.mapM_cons]
    rcases tokenized.check_cases with ⟨admitted, checked⟩ | ⟨foreign, e, checked⟩
    · have line : s.line = .ok (Section.element s.name.toList (spell lexemes) ++ ['\n']) := by
        rw [Section.line, checked]
        rfl
      rcases ih others with ⟨rest, lines, run⟩ | ⟨before, t, after, e, rfl, rest, foreign, run⟩
      · refine .inl ⟨List.forall_mem_cons.2 ⟨admitted, rest⟩,
          (Section.element s.name.toList (spell lexemes) ++ ['\n']) :: lines, ?_⟩
        rw [line, run]
        rfl
      · refine .inr ⟨s :: before, t, after, e, rfl, List.forall_mem_cons.2 ⟨admitted, rest⟩,
          foreign, ?_⟩
        rw [line, run]
        rfl
    · refine .inr ⟨[], s, ss, e, rfl, List.forall_mem_nil _, foreign, ?_⟩
      rw [Section.line, checked]
      rfl

/-- An envelope of such sections is written and can be read again, or the first section that is not
admitted is blamed. -/
theorem encode_cases (all : ∀ s ∈ envelope.sections, ∃ lexemes, s.Tokenized lexemes) :
    ((∀ s ∈ envelope.sections, s.IsAdmitted) ∧
        ∃ octets, encode envelope = .ok octets ∧ decode octets = .ok envelope) ∨
      ∃ before s after e, envelope.sections = before ++ s :: after ∧
        (∀ b ∈ before, b.IsAdmitted) ∧ ¬ s.IsAdmitted ∧
        encode envelope = .error (.malformedPayload s.name (.markup e)) := by
  rcases mapM_line_cases all with
    ⟨admitted, lines, run⟩ | ⟨before, s, after, e, split, admitted, foreign, run⟩
  · refine .inl ⟨admitted, _, ?_, decode_document run⟩
    rw [encode, run]
    rfl
  · refine .inr ⟨before, s, after, e, split, admitted, foreign, ?_⟩
    rw [encode, run]
    rfl

theorem encode_isOk_iff (all : ∀ s ∈ envelope.sections, ∃ lexemes, s.Tokenized lexemes) :
    (∃ octets, encode envelope = .ok octets) ↔ ∀ s ∈ envelope.sections, s.IsAdmitted := by
  rcases encode_cases all with
    ⟨admitted, octets, run, -⟩ | ⟨before, s, after, e, split, -, foreign, run⟩
  · exact ⟨fun _ => admitted, fun _ => ⟨octets, run⟩⟩
  · constructor
    · rintro ⟨octets, written⟩
      rw [run] at written
      cases written
    · intro admitted
      exact absurd (admitted s (by simp [split])) foreign

end Envelope

end SectionStore
