import SectionStore.Envelope.Parser
import SectionStore.Envelope.Writer
import SectionStore.Proofs.Markup.Context
import SectionStore.Proofs.Running

/-!
# What is written can be read again

A document is read piece by piece: the header (`readHeader_header`), each section
(`nextInBody_element`), and the end of the root element (`nextInBody_end`). Between two pieces the
parser stands before the end of a line, with only the root element open. `decode_document` puts the
pieces together, and `decode_of_encode` is the statement about octets.
-/

namespace SectionStore.Envelope

open Markup Cut

theorem isName_rootName : isName rootName = true := by decide

theorem isName_integrityName : isName integrityName = true := by decide

/-! ### One operation of a parser -/

namespace Parser

/-- The parser stands before `rest`, with the elements `opened` around it. -/
structure At (rest : List Char) (opened : List (List Char)) (phase : Phase)
    (version : Option DataVersion) (p : Parser) : Prop where
  reader : Reader.At rest opened p.reader
  phase : p.phase = phase
  version : p.version = version

variable {rest : List Char} {opened : List (List Char)} {phase : Phase}
  {version : Option DataVersion} {p : Parser}

theorem At.behind {rest' : List Char} {opened' : List (List Char)} {r : Reader}
    (here : At rest opened phase version p) (there : Reader.At rest' opened' r) :
    At rest' opened' phase version (p.behind r) :=
  ⟨there, here.phase, here.version⟩

theorem reading_of_ok {α : Type} (wrap : Markup.Error → Error) {m : Read α} {r : Reader} {a : α}
    (h : m p.reader = .ok a r) : reading wrap m p = .ok a (p.behind r) := by
  rw [reading, h]

/-- Over an element that closes itself nothing is read. -/
theorem skipElement_selfClosing {tag : StartTag} (closes : tag.selfClosing = true) (r : Reader) :
    Reader.skipElement tag r = .ok () r := by
  simp [Reader.skipElement, Reader.elementContent, closes, run_bind, EStateM.pure,
    Pure.pure]

/-! ### The header -/

theorem seekRoot_blank {gap : List Char} (blank : isBlank gap = true) (nonempty : gap ≠ [])
    (begins : BeginsMarkup rest) (here : At (gap ++ rest) opened phase version p) :
    ∃ p', seekRoot p = seekRoot p' ∧ At rest opened phase version p' := by
  obtain ⟨r, step, there⟩ :=
    Reader.nextScanned_other (form_blank blank nonempty) begins rfl here.reader
  refine ⟨p.behind r, ?_, here.behind there⟩
  rw [seekRoot]
  split <;> simp_all

theorem seekRoot_declaration {lexeme : List Char} (form : TokenForm .declaration lexeme)
    (here : At (lexeme ++ rest) opened phase version p) :
    ∃ p', seekRoot p = seekRoot p' ∧ At rest opened phase version p' := by
  obtain ⟨r, step, there⟩ := Reader.nextScanned_other form trivial rfl here.reader
  refine ⟨p.behind r, ?_, here.behind there⟩
  rw [seekRoot]
  split <;> simp_all

theorem seekRoot_root (here : At (openTag rootName ++ rest) opened phase version p) :
    ∃ p', seekRoot p = .ok () p' ∧ At rest (rootName :: opened) phase version p' := by
  obtain ⟨r, step, there⟩ := Reader.nextScanned_opening (form_openTag isName_rootName) here.reader
  refine ⟨p.behind r, ?_, here.behind there⟩
  rw [seekRoot]
  split <;> simp_all

/-- The next child stands on the next line. -/
theorem nextChild_line {tag : StartTag} {lexeme : List Char} {r : Reader}
    (form : TokenForm (.opening tag) lexeme) (begins : BeginsMarkup (lexeme ++ rest))
    (here : Reader.At ('\n' :: (lexeme ++ rest)) opened r) :
    ∃ r', Reader.nextChild r = .ok (some tag) r' ∧
      Reader.At rest (if tag.selfClosing then opened else tag.name :: opened) r' := by
  obtain ⟨r₁, same, there⟩ :=
    Reader.nextChild_blank blank_newline (by simp) begins here
  obtain ⟨r₂, child, there⟩ := Reader.nextChild_opening form there
  exact ⟨r₂, same.trans child, there⟩

/-- The tag that holds the number of a version. -/
abbrev versionTag (supported : DataVersion) : StartTag :=
  ⟨['i', 'n', 't'], [⟨nameAttribute, escape versionName⟩,
    ⟨valueAttribute, Integer.decimal supported.number⟩], true⟩

theorem number_cases (supported : DataVersion) :
    supported.number = 1 ∨ supported.number = 2 ∨ supported.number = 3 := by
  have := supported.supported
  omega

theorem form_versionTag (supported : DataVersion) :
    TokenForm (.opening (versionTag supported)) (intElement versionName supported.number) := by
  apply form_valueTag (by decide)
  all_goals rcases number_cases supported with h | h | h <;> rw [h] <;> decide

theorem isVersionTag_versionTag (supported : DataVersion) :
    isVersionTag (versionTag supported) = true := by
  rcases number_cases supported with h | h | h <;> rw [versionTag, h] <;> decide

theorem int?_versionTag (supported : DataVersion) :
    (versionTag supported).int? = .ok supported.number := by
  rcases number_cases supported with h | h | h <;> rw [versionTag, h] <;> rfl

theorem readVersion_written (supported : DataVersion)
    (here : At ('\n' :: (intElement versionName supported.number ++ rest)) opened phase version p) :
    ∃ p', readVersion p = .ok supported p' ∧ At rest opened phase version p' := by
  obtain ⟨r, child, there⟩ :=
    nextChild_line (form_versionTag supported) (stopsAt_cons.2 (by decide)) here.reader
  have closed : (versionTag supported).selfClosing = true := rfl
  have skip := reading_of_ok .markup (p := p.behind r) (skipElement_selfClosing closed r)
  refine ⟨_, ?_, (here.behind there).behind there⟩
  simp only [readVersion, run_bind, reading_of_ok _ child,
    isVersionTag_versionTag, if_true, int?_versionTag, skip, DataVersion.ofInt?_number]
  rfl

theorem skipIntegrity_written
    (here : At ('\n' :: (emptyTag integrityName ++ rest)) opened phase version p) :
    ∃ p', skipIntegrity p = .ok () p' ∧ At rest opened phase version p' := by
  obtain ⟨r, child, there⟩ := nextChild_line (form_emptyTag isName_integrityName)
    (beginsMarkup_emptyTag _ _) here.reader
  have closed : (StartTag.mk integrityName [] true).selfClosing = true := rfl
  have skip := reading_of_ok .markup (p := p.behind r) (skipElement_selfClosing closed r)
  refine ⟨_, ?_, (here.behind there).behind there⟩
  simp only [skipIntegrity, run_bind, reading_of_ok _ child, if_true, skip]

/-- The parts of the header are read one after the other. -/
theorem readHeader_of_parts {p₁ p₂ p₃ : Parser} {supported : DataVersion}
    (unread : p.version = none) (root : seekRoot p = .ok () p₁)
    (number : readVersion ⟨p₁.reader, .header, p₁.version⟩ = .ok supported p₂)
    (block : if supported.hasIntegrityBlock then skipIntegrity p₂ = .ok () p₃ else p₃ = p₂) :
    readHeader p = .ok supported ⟨p₃.reader, .sections, some supported⟩ := by
  unfold readHeader
  simp only [run_bind, run_get, run_modify, unread, root, number]
  cases has : supported.hasIntegrityBlock with
  | false =>
    simp only [has, Bool.false_eq_true, if_false] at block ⊢
    rw [block]
    rfl
  | true =>
    simp only [has, if_true] at block ⊢
    simp only [run_bind, block]
    rfl

/-- The header is read up to the end of its last line. -/
theorem readHeader_header (supported : DataVersion) (rest : List Char) :
    ∃ p', readHeader (Parser.ofText (header supported ++ rest)) = .ok supported p' ∧
      At ('\n' :: rest) [rootName] .sections (some supported) p' := by
  obtain ⟨lexeme, shape, form⟩ := form_declaration
  have start : At (header supported ++ rest) [] .start none
      (Parser.ofText (header supported ++ rest)) := ⟨⟨rfl, rfl⟩, rfl, rfl⟩
  generalize Parser.ofText (header supported ++ rest) = p at start ⊢
  rw [header, shape] at start
  simp only [List.append_assoc, List.cons_append, List.nil_append] at start
  obtain ⟨p₁, seek₁, at₁⟩ := seekRoot_declaration form start
  obtain ⟨p₂, seek₂, at₂⟩ := seekRoot_blank blank_newline (by simp)
    (beginsMarkup_openTag _ _) at₁
  obtain ⟨p₃, seek₃, at₃⟩ := seekRoot_root at₂
  have root := (seek₁.trans seek₂).trans seek₃
  obtain ⟨p₄, number, at₄⟩ := readVersion_written supported
    (p := ⟨p₃.reader, .header, p₃.version⟩) ⟨at₃.reader, rfl, rfl⟩
  cases has : supported.hasIntegrityBlock with
  | false =>
    have none : if supported.hasIntegrityBlock then skipIntegrity p₄ = .ok () p₄ else p₄ = p₄ := by
      simp [has]
    refine ⟨_, readHeader_of_parts start.version root number none, ?_, rfl, rfl⟩
    simpa [has] using at₄.reader
  | true =>
    simp only [has, if_true, List.append_assoc, List.cons_append, List.nil_append] at at₄
    obtain ⟨p₅, block, at₅⟩ := skipIntegrity_written at₄
    exact ⟨_, readHeader_of_parts start.version root number (by simpa [has] using block),
      at₅.reader, rfl, rfl⟩

/-! ### The sections -/

/-- An element is read back as a section, with its payload as it was written. -/
theorem nextInBody_element {name payload : List Char} (named : isName name = true)
    (checked : checkFragment payload = .ok ())
    (here : At ('\n' :: (Section.element name payload ++ rest)) opened phase version p) :
    ∃ p', nextInBody p = .ok (some ⟨String.ofList name, Utf8.encode payload⟩) p' ∧
      At rest opened phase version p' := by
  by_cases empty : payload = []
  · subst empty
    obtain ⟨r, child, there⟩ := nextChild_line (form_emptyTag named) (beginsMarkup_emptyTag _ _)
      here.reader
    have content : Reader.elementContent ⟨name, [], true⟩ (p.behind r).reader = .ok [] r := rfl
    refine ⟨_, ?_, (here.behind there).behind there⟩
    simp only [nextInBody, run_bind, reading_of_ok _ child, reading_of_ok _ content]
    rfl
  · have shape : Section.element name payload ++ rest =
        openTag name ++ (payload ++ (closeTag name ++ rest)) := by
      rw [Section.element, if_neg empty, List.append_assoc, List.append_assoc]
    rw [shape] at here
    obtain ⟨r, child, inside⟩ := nextChild_line (form_openTag named) (beginsMarkup_openTag _ _)
      here.reader
    have within : Reader.Within (closeTag name ++ rest) (name :: opened) (.ofText payload) r :=
      ⟨inside.rest, inside.opened⟩
    obtain ⟨r', content, there⟩ := Reader.content_of_checkRest named checked within
    have depth : r.depth - 1 = opened.length := by
      rw [Reader.depth, inside.opened]
      rfl
    have content' : Reader.elementContent ⟨name, [], false⟩ (p.behind r).reader =
        .ok payload r' := by
      rw [← depth] at content
      exact content
    refine ⟨_, ?_, (here.behind there).behind there⟩
    simp only [nextInBody, run_bind, reading_of_ok _ child, reading_of_ok _ content']
    rfl

theorem finish_end (here : At [] [] phase version p) : ∃ p', finish p = .ok () p' := by
  have ended : p.reader.nextScanned = .ok none p.reader := Reader.nextScanned_end here.reader
  refine ⟨⟨p.reader, .done, p.version⟩, ?_⟩
  rw [finish]
  split <;> simp_all

/-- Blank text may stand behind the root element, or nothing. -/
theorem finish_blank {gap : List Char} (blank : isBlank gap = true)
    (here : At gap [] phase version p) : ∃ p', finish p = .ok () p' := by
  by_cases empty : gap = []
  · rw [empty] at here
    exact finish_end here
  · have ends : Token.EndsBefore [] (.text gap) := by simp [Token.EndsBefore, StopsAt]
    obtain ⟨r, step, there⟩ := Reader.nextScanned_other (form_blank blank empty) ends rfl
      (by rw [List.append_nil]; exact here.reader)
    obtain ⟨p', last⟩ := finish_end (here.behind there)
    refine ⟨p', ?_⟩
    rw [finish]
    split <;> simp_all

/-- Behind the last section the root element and the document end. -/
theorem nextInBody_end {gap : List Char} (blank : isBlank gap = true)
    (here : At ('\n' :: (closeTag rootName ++ gap)) [rootName] phase version p) :
    ∃ p', nextInBody p = .ok none p' := by
  obtain ⟨r₁, same, at₁⟩ := Reader.nextChild_blank blank_newline (by simp)
    (beginsMarkup_closeTag _ _) here.reader
  obtain ⟨r₂, child, at₂⟩ := Reader.nextChild_closing (form_closeTag isName_rootName) at₁
  obtain ⟨p', done⟩ := finish_blank blank (here.behind at₂)
  refine ⟨p', ?_⟩
  simp only [nextInBody, run_bind, reading_of_ok _ (same.trans child), done]
  rfl

theorem nextSection_of_sections (among : p.phase = .sections) : nextSection p = nextInBody p := by
  simp only [nextSection, run_bind, run_get, among]

theorem sections_of_some {p' : Parser} {s : Section} (h : nextSection p = .ok (some s) p') :
    p.sections = (s :: p'.sections.1, p'.sections.2) := by
  rw [sections]
  split <;> simp_all

theorem sections_of_none {p' : Parser} (h : nextSection p = .ok none p') :
    p.sections = ([], none) := by
  rw [sections]
  split <;> simp_all

end Parser

/-- A section that has a line has a name for a tag and well-formed text as its payload. -/
theorem line_eq_ok {s : Section} {line : List Char} (h : s.line = .ok line) :
    ∃ payload, isName s.name.toList = true ∧ s.payload = Utf8.encode payload ∧
      checkFragment payload = .ok () ∧ line = Section.element s.name.toList payload ++ ['\n'] := by
  unfold Section.line Section.check at h
  split at h
  · rename_i named
    split at h
    · cases h
    rename_i payload decoded
    split at h
    · cases h
    rename_i checked
    cases h
    exact ⟨payload, named, Utf8.eq_encode_of_decode decoded, checked, rfl⟩
  · cases h

theorem mapM_line_cons {s : Section} {ss : List Section} {lines : List (List Char)}
    (h : (s :: ss).mapM Section.line = .ok lines) :
    ∃ line others, s.line = .ok line ∧ ss.mapM Section.line = .ok others ∧
      lines = line :: others := by
  rw [List.mapM_cons] at h
  cases first : s.line with
  | error e => simp [first, Bind.bind, Except.bind] at h
  | ok line =>
    cases rest : ss.mapM Section.line with
    | error e => simp [first, rest, Bind.bind, Except.bind] at h
    | ok others =>
      refine ⟨line, others, rfl, rfl, ?_⟩
      simpa [first, rest, Bind.bind, Except.bind, Pure.pure, Except.pure, eq_comm] using h

/-- The lines of the sections are read back in order, up to the end of the document. -/
theorem sections_of_lines {ss : List Section} {lines : List (List Char)} {gap : List Char}
    {version : Option DataVersion} {p : Parser} (written : ss.mapM Section.line = .ok lines)
    (blank : isBlank gap = true)
    (here : p.At ('\n' :: (lines.flatten ++ (closeTag rootName ++ gap))) [rootName] .sections
      version) : p.sections = (ss, none) := by
  induction ss generalizing lines p with
  | nil =>
    cases written
    obtain ⟨p', done⟩ := Parser.nextInBody_end blank here
    exact Parser.sections_of_none ((Parser.nextSection_of_sections here.phase).trans done)
  | cons s ss ih =>
    obtain ⟨line, others, first, rest, rfl⟩ := mapM_line_cons written
    obtain ⟨payload, named, text, checked, rfl⟩ := line_eq_ok first
    simp only [List.flatten_cons, List.append_assoc, List.cons_append, List.nil_append] at here
    obtain ⟨p', read, there⟩ := Parser.nextInBody_element named checked here
    rw [Parser.sections_of_some ((Parser.nextSection_of_sections here.phase).trans read),
      ih rest there, String.ofList_toList, ← text]

/-- A document decodes to the envelope that its lines were written from, whatever blank text stands
behind the root element. -/
theorem decode_lines (version : DataVersion) {ss : List Section} {lines : List (List Char)}
    {gap : List Char} (written : ss.mapM Section.line = .ok lines) (blank : isBlank gap = true) :
    decode (Utf8.encode (header version ++ lines.flatten ++ closeTag rootName ++ gap)) =
      .ok ⟨version, ss⟩ := by
  rw [List.append_assoc, List.append_assoc]
  obtain ⟨p, headed, here⟩ :=
    Parser.readHeader_header version (lines.flatten ++ (closeTag rootName ++ gap))
  have parsed (text : List Char) : Parser.ofBytes (Utf8.encode text) = .ok (.ofText text) := by
    rw [Parser.ofBytes, Utf8.decode_encode]
    rfl
  simp only [decode, parsed, Bind.bind, Except.bind, headed, sections_of_lines written blank here]
  rfl

/-- A document that was written decodes to the envelope that it was written from. -/
theorem decode_document {version : DataVersion} {ss : List Section} {lines : List (List Char)}
    (written : ss.mapM Section.line = .ok lines) :
    decode (Utf8.encode (header version ++ lines.flatten ++ closeTag rootName ++ ['\n'])) =
      .ok ⟨version, ss⟩ :=
  decode_lines version written blank_newline

theorem encode_eq_ok {envelope : Envelope} {octets : ByteArray}
    (written : envelope.encode = .ok octets) :
    ∃ lines, envelope.sections.mapM Section.line = .ok lines ∧
      octets =
        Utf8.encode (header envelope.version ++ lines.flatten ++ closeTag rootName ++ ['\n']) := by
  cases lines : envelope.sections.mapM Section.line with
  | error e => simp [encode, lines, Bind.bind, Except.bind] at written
  | ok lines' =>
    simp only [encode, lines, Bind.bind, Except.bind, Pure.pure, Except.pure, Except.ok.injEq]
      at written
    exact ⟨lines', rfl, written.symm⟩

/-- Decoding what was encoded gives the envelope back, in all its parts. -/
theorem decode_of_encode {envelope : Envelope} {octets : ByteArray}
    (written : envelope.encode = .ok octets) : decode octets = .ok envelope := by
  obtain ⟨lines, hlines, rfl⟩ := encode_eq_ok written
  exact decode_document hlines

/-- An envelope with a name that repeats, and a payload that holds the closing tag of its own
section between the marks of character data. -/
def nestedEnvelope : Envelope :=
  ⟨.integrity,
    [⟨"A", Utf8.encode (openTag ['b'] ++ cdataMark ++ closeTag ['A'] ++ [']', ']', '>'] ++
      closeTag ['b'])⟩,
     ⟨"int", Utf8.encode []⟩, ⟨"A", Utf8.encode ['1', '\n']⟩]⟩

theorem decode_of_encode_nestedEnvelope :
    ∃ octets, nestedEnvelope.encode = .ok octets ∧ decode octets = .ok nestedEnvelope := by
  have accepted : nestedEnvelope.encode.isOk = true := by decide +kernel
  cases written : nestedEnvelope.encode with
  | error e => simp [written, Except.isOk, Except.toBool] at accepted
  | ok octets => exact ⟨octets, rfl, decode_of_encode written⟩

end SectionStore.Envelope
