import SectionStore.Proofs.Envelope.Grammar

/-!
# Documents that are cut off

A document that was written to a part only is refused, wherever the cut falls. What is left of it is
text up to the cut, so if it were a document it would have a root element that ends within it
(`Rooted`). Behind that end nothing counts, so the whole document would have a root element that ends
there too; but the end of a root element is the first place where nothing is open any more
(`Rooted.eq_of_isPrefix`), and the root element that was written ends with the text
(`trailing_eq_nil`). The end of the last line is the only octet that may be missing
(`decode_extract`).
-/

namespace SectionStore.Utf8

/-- Octets that begin with a text and are a text go on with the rest of that text. -/
theorem prefix_of_encode_append {part whole : List Char} {octets : ByteArray}
    (split : encode part ++ octets = encode whole) : part <+: whole :=
  List.isPrefix_of_utf8Encode_append_eq_utf8Encode octets split

end SectionStore.Utf8

namespace SectionStore.Envelope

open Markup

/-! ### The root element -/

/-- What stands before the root element, and the root element itself. -/
inductive Rooted : List Lexeme → Prop where
  | mk {root : StartTag} {name opening closing : List Char} {gap inner : List Lexeme}
      (misc : Misc gap) (opens : root.selfClosing = false) (inside : Content inner) :
      Rooted (gap ++ ⟨.opening root, opening⟩ :: (inner ++ [⟨.closing name, closing⟩]))

/-- A root element ends where its content ends, so it does not go on behind an end of itself. -/
theorem Rooted.eq_of_isPrefix {xs ys others : List Lexeme} (first : Rooted xs) (second : Rooted ys)
    (along : xs <+: ys ++ others) : xs = ys := by
  obtain @⟨root, name, opening, closing, gap, inner, misc, opens, inside⟩ := first
  obtain @⟨root', name', opening', closing', gap', inner', misc', opens', inside'⟩ := second
  simp only [List.append_assoc, List.cons_append, List.nil_append] at along
  obtain rfl : gap = gap' := misc.eq_of_isPrefix misc' rfl rfl along
  have along := (List.prefix_append_right_inj gap).1 along
  obtain ⟨same, along⟩ := List.cons_prefix_cons.1 along
  obtain rfl : inner = inner' := inside.eq_of_isPrefix inside' along
  have along := (List.prefix_append_right_inj inner).1 along
  obtain ⟨same', -⟩ := List.cons_prefix_cons.1 along
  rw [same, same']

theorem Rooted.closes {lexemes : List Lexeme} (rooted : Rooted lexemes) (rest : List Char) :
    ∀ l ∈ lexemes.getLast?, l.token.EndsBefore rest := by
  obtain ⟨misc, opens, inside⟩ := rooted
  intro l last
  rw [← List.cons_append, ← List.append_assoc, List.getLast?_concat] at last
  cases last
  trivial

/-- The sections of a document are content of its root element. -/
theorem Body.split {sections : List Section} {lexemes : List Lexeme} (body : Body sections lexemes) :
    ∃ inner closing trailing, Content inner ∧ Trailing trailing ∧
      lexemes = inner ++ ⟨.closing rootName, closing⟩ :: trailing := by
  induction body with
  | done misc rest => exact ⟨_, _, _, content_of_misc misc, rest, rfl⟩
  | another child rest ih =>
    obtain ⟨inner, closing, trailing, inside, all, rfl⟩ := ih
    exact ⟨_, closing, trailing, child.content.append inside, all, (List.append_assoc _ _ _).symm⟩

theorem Document.split {envelope : Envelope} {lexemes : List Lexeme}
    (document : Document envelope lexemes) :
    ∃ rooted trailing, Rooted rooted ∧ Trailing trailing ∧ lexemes = rooted ++ trailing := by
  obtain ⟨header, body⟩ := document
  obtain @⟨root, tag, opening, _, gap, number, block, misc, named, opens, numbers, child,
    integrity⟩ := header
  obtain ⟨inner, closing, trailing, inside, all, rfl⟩ := body.split
  have content := child.content.append (integrity.content.append inside)
  refine ⟨_, trailing, @Rooted.mk root rootName opening closing gap _ misc opens content, all, ?_⟩
  simp

/-! ### The end of a document -/

/-- Behind a text that ends with the closing tag of the root element, a comment or blank text would
show in its last characters. -/
theorem trailing_eq_nil {head before : List Char} {trailing : List Lexeme}
    (all : Trailing trailing) (forms : ∀ l ∈ trailing, TokenForm l.token l.text)
    (spelled : head ++ spell trailing = before ++ closeTag rootName) : trailing = [] := by
  rcases List.eq_nil_or_concat trailing with empty | ⟨others, ⟨token, text⟩, rfl⟩
  · exact empty
  · have form : TokenForm token text := forms ⟨token, text⟩ (by simp)
    have kind : isTrailing token = true := all ⟨token, text⟩ (by simp)
    have last : text.reverse ++ ((spell others).reverse ++ head.reverse) =
        '>' :: 'a' :: (before ++ (closeTag rootName).dropLast.dropLast).reverse := by
      have reversed := congrArg List.reverse spelled
      simpa [closeTag, rootName] using reversed
    exfalso
    cases form with
    | comment begins first =>
      rw [List.reverse_append] at last
      obtain ⟨-, last⟩ := List.cons.inj last
      exact absurd (List.cons.inj last).1 (by decide)
    | text nonempty plain =>
      cases shape : text.reverse with
      | nil => exact nonempty (List.reverse_eq_nil_iff.1 shape)
      | cons c tail =>
        have inside : c ∈ text := by
          rw [← List.mem_reverse, shape]
          exact List.mem_cons_self
        have space : isSpace c = true := List.all_eq_true.1 kind c inside
        rw [shape] at last
        rw [(List.cons.inj last).1] at space
        cases space
    | _ => cases kind

/-- Of a document without the end of its last line, no other beginning is a document. -/
theorem eq_of_isPrefix_of_decode {version : DataVersion} {sections : List Section}
    {lines : List (List Char)} {part : List Char} {envelope : Envelope}
    (written : sections.mapM Section.line = .ok lines)
    (along : part <+: header version ++ lines.flatten ++ closeTag rootName)
    (decoded : decode (Utf8.encode part) = .ok envelope) :
    part = header version ++ lines.flatten ++ closeTag rootName := by
  have whole := decode_lines version written blank_nil
  rw [List.append_nil] at whole
  generalize shape : header version ++ lines.flatten ++ closeTag rootName = text at *
  obtain ⟨lexemes, r, read, reads, -, document⟩ := document_of_decode decoded
  obtain ⟨lexemes', r', read', reads', ended, document'⟩ := document_of_decode whole
  obtain ⟨rooted, trailing, root, -, rfl⟩ := document.split
  obtain ⟨rooted', trailing', root', all, rfl⟩ := document'.split
  rw [Utf8.decode_encode] at read read'
  obtain rfl := Except.ok.inj read
  obtain rfl := Except.ok.inj read'
  -- the whole text is read like the part as far as the root element of the part goes
  obtain ⟨more, split⟩ := along
  have within : Reader.Within more [] (.ofText (spell (rooted ++ trailing)))
      (.ofText (spell (rooted' ++ trailing'))) := ⟨split.symm, rfl⟩
  obtain ⟨r₁, before, -⟩ := Reader.reads_append_iff.1 reads
  obtain ⟨r₂, before', -⟩ := within.reads before (root.closes _)
  obtain rfl := root.eq_of_isPrefix root' (reads'.prefix_of_ended ended before')
  -- and behind it the whole text has nothing left
  have none : trailing' = [] := by
    refine trailing_eq_nil all ?_ ((spell_append _ _).symm.trans shape.symm)
    intro l hl
    exact reads'.form_of_mem (List.mem_append_right _ hl)
  have nothing : spell trailing = [] ∧ more = [] := by simpa [none] using split
  rw [none, List.append_nil, spell_append, nothing.1, List.append_nil]

/-- A written document without its last octet, the end of the last line, still decodes. Without more
than that octet it does not. -/
theorem decode_extract {envelope : Envelope} {octets : ByteArray} {n : Nat}
    (written : envelope.encode = .ok octets) :
    (n + 1 = octets.size → octets = octets.extract 0 n ++ Utf8.encode ['\n'] ∧
      decode (octets.extract 0 n) = .ok envelope) ∧
    (n + 1 < octets.size → ∃ e, decode (octets.extract 0 n) = .error e) := by
  obtain ⟨lines, hlines, rfl⟩ := encode_eq_ok written
  have newline : (Utf8.encode ['\n']).size = 1 := by decide +kernel
  constructor
  · intro last
    have whole := decode_lines envelope.version hlines blank_nil
    rw [List.append_nil] at whole
    rw [Utf8.encode_append] at last ⊢
    rw [ByteArray.size_append, newline, Nat.add_right_cancel_iff] at last
    rw [ByteArray.extract_append_eq_left last]
    exact ⟨rfl, whole⟩
  · intro short
    generalize shape : header envelope.version ++ lines.flatten ++ closeTag rootName = text at *
    generalize whole : Utf8.encode (text ++ ['\n']) = octets at *
    cases decoded : decode (octets.extract 0 n) with
    | error e => exact ⟨e, rfl⟩
    | ok envelope' =>
      exfalso
      obtain ⟨lexemes, r, read, -⟩ := document_of_decode decoded
      have same := Utf8.eq_encode_of_decode read
      have size : (Utf8.encode (spell lexemes)).size = n := by
        rw [← same, ByteArray.size_extract]
        omega
      have split : Utf8.encode (spell lexemes) ++ octets.extract n octets.size =
          Utf8.encode (text ++ ['\n']) := by
        rw [← same, whole, ← ByteArray.extract_eq_extract_append_extract n (by omega) (by omega),
          ByteArray.extract_zero_size]
      rcases List.prefix_concat_iff.1 (Utf8.prefix_of_encode_append split) with all | part
      · rw [all, whole] at size
        omega
      · rw [same] at decoded
        rw [← shape] at part
        rw [eq_of_isPrefix_of_decode hlines part decoded, shape] at size
        rw [← whole, Utf8.encode_append, ByteArray.size_append, newline, size] at short
        omega

/-- Three octets less, and the root element of the nested envelope is not closed any more. -/
theorem decode_extract_nestedEnvelope : ∃ octets, nestedEnvelope.encode = .ok octets ∧
    decode (octets.extract 0 (octets.size - 1)) = .ok nestedEnvelope ∧
    ∃ e, decode (octets.extract 0 (octets.size - 3)) = .error e := by
  have accepted : nestedEnvelope.encode.toOption.any (3 < ·.size) = true := by decide +kernel
  cases written : nestedEnvelope.encode with
  | error e =>
    rw [written] at accepted
    cases accepted
  | ok octets =>
    rw [written] at accepted
    have large : 3 < octets.size := by simpa [Except.toOption] using accepted
    exact ⟨octets, rfl, ((decode_extract written).1 (by omega)).2,
      (decode_extract written).2 (by omega)⟩

end SectionStore.Envelope
