import SectionStore.Proofs.Markup.Positions

/-!
# Marks that touch

`Delimited token lexeme` is the grammar of tokens in which the opening and the end mark are two
marks. The reader looks for the end mark of a declaration or a comment from the opening bracket on,
and so takes three lexemes in which a character belongs to both: `touching`. They are the only ones
(`TokenForm.delimited_or_touching`). Main statement: `delimited_iff_of_next`, by which a token that
is returned has its form exactly where the text does not go on with one of the three. What follows
a comment that is taken too short is read as markup (`hidden_tag_shows`).
-/

namespace SectionStore.Markup

/-- How a token is written with marks that do not touch. -/
inductive Delimited : Token → List Char → Prop where
  | declaration {inner : List Char} (first : ¬ ['?', '>'] <:+: inner) :
      Delimited .declaration (['<', '?'] ++ inner ++ ['?', '>'])
  | comment {inner : List Char} (first : ¬ ['-', '-', '>'] <:+: inner) :
      Delimited .comment (commentMark ++ inner ++ ['-', '-', '>'])
  | cdata {content : List Char} (first : ¬ [']', ']', '>'] <:+: content) :
      Delimited (.cdata content) (cdataMark ++ content ++ [']', ']', '>'])
  | opening {name lexeme : List Char} {as : List Attribute} {closes : Bool}
      (named : isName name = true) (attributes : AttributesForm as closes lexeme) :
      Delimited (.opening ⟨name, as, closes⟩) ('<' :: name ++ lexeme)
  | closing {name gap : List Char} (named : isName name = true) (blank : isBlank gap = true) :
      Delimited (.closing name) ('<' :: '/' :: name ++ gap ++ ['>'])
  | text {content : List Char} (nonempty : content ≠ []) (plain : '<' ∉ content) :
      Delimited (.text content) content

/-- The lexemes whose end mark begins inside the opening mark. -/
def touching : List Lexeme :=
  [⟨.declaration, ['<', '?', '>']⟩, ⟨.comment, ['<', '!', '-', '-', '>']⟩,
    ⟨.comment, ['<', '!', '-', '-', '-', '>']⟩]

variable {text : List Char} {token : Token} {lexeme : List Char} {l : Lexeme}

theorem tokenForm_of_touching (h : l ∈ touching) : TokenForm l.token l.text := by
  simp only [touching, List.mem_cons, List.not_mem_nil, or_false] at h
  rcases h with rfl | rfl | rfl
  · exact @TokenForm.declaration ['<'] (by decide) (by decide)
  · exact @TokenForm.comment ['<', '!'] (by decide) (by decide)
  · exact @TokenForm.comment ['<', '!', '-'] (by decide) (by decide)

theorem endsBefore_of_touching (h : l ∈ touching) (rest : List Char) : l.token.EndsBefore rest := by
  simp only [touching, List.mem_cons, List.not_mem_nil, or_false] at h
  rcases h with rfl | rfl | rfl <;> exact trivial

theorem Delimited.length_declaration (written : Delimited .declaration lexeme) :
    4 ≤ lexeme.length := by
  cases written with
  | declaration => simp

theorem Delimited.length_comment (written : Delimited .comment lexeme) : 7 ≤ lexeme.length := by
  cases written with
  | comment => simp [commentMark]

/-- A lexeme with marks that touch is too short for two marks. -/
theorem not_delimited_of_touching (h : l ∈ touching) : ¬ Delimited l.token l.text := by
  intro written
  simp only [touching, List.mem_cons, List.not_mem_nil, or_false] at h
  rcases h with rfl | rfl | rfl
  · exact absurd written.length_declaration (by decide)
  · exact absurd written.length_comment (by decide)
  · exact absurd written.length_comment (by decide)

/-- Marks that stand apart, or that touch in one of the three ways. -/
theorem TokenForm.delimited_or_touching (form : TokenForm token lexeme) :
    Delimited token lexeme ∨ ⟨token, lexeme⟩ ∈ touching := by
  cases form with
  | @declaration before begins first =>
    match before with
    | [] => simp at begins
    | [c] =>
      obtain rfl : '<' = c := by simpa using begins
      exact .inr (by decide)
    | c :: d :: inner =>
      obtain ⟨rfl, rfl⟩ : '<' = c ∧ '?' = d := by simpa using begins
      exact .inl (.declaration fun inside =>
        first (inside.trans (List.suffix_append ['<', '?'] inner).isInfix))
  | @comment before begins first =>
    match before with
    | [] => simp [commentMark] at begins
    | [c] => simp [commentMark] at begins
    | [c, d] =>
      obtain ⟨rfl, rfl⟩ : '<' = c ∧ '!' = d := by simpa [commentMark] using begins
      exact .inr (by decide)
    | [c, d, e] =>
      obtain ⟨rfl, rfl, rfl⟩ : '<' = c ∧ '!' = d ∧ '-' = e := by simpa [commentMark] using begins
      exact .inr (by decide)
    | c :: d :: e :: f :: inner =>
      obtain ⟨rfl, rfl, rfl, rfl⟩ : '<' = c ∧ '!' = d ∧ '-' = e ∧ '-' = f := by
        simpa [commentMark] using begins
      exact .inl (.comment fun inside =>
        first (inside.trans (List.suffix_append commentMark inner).isInfix))
  | cdata first => exact .inl (.cdata first)
  | opening named attributes => exact .inl (.opening named attributes)
  | closing named blank => exact .inl (.closing named blank)
  | text nonempty plain => exact .inl (.text nonempty plain)

/-- A text begins in one way. -/
theorem TokenForm.unique {rest lexeme' rest' : List Char} {token' : Token}
    (form : TokenForm token lexeme) (ends : token.EndsBefore rest)
    (form' : TokenForm token' lexeme') (ends' : token'.EndsBefore rest')
    (same : lexeme ++ rest = lexeme' ++ rest') :
    token = token' ∧ lexeme = lexeme' := by
  have found := scan_of_form form ends
  rw [same, scan_of_form form' ends'] at found
  cases found
  exact ⟨rfl, rfl⟩

namespace Reader

variable {r r' : Reader}

/-- The octets of a token have the form of its kind unless the text goes on with marks that touch,
and these are taken then. -/
theorem delimited_iff_of_next (visits : Visits text r) (step : next r = .ok (some token) r') :
    ∃ lexeme, slice text r'.tokenStart r'.offset = Utf8.encode lexeme ∧
      (Delimited token lexeme ↔ ∀ l ∈ touching, ¬ l.text <+: r.rest) ∧
      ∀ l ∈ touching, l.text <+: r.rest → token = l.token ∧ lexeme = l.text := by
  obtain ⟨lexeme, form, ends, split, -, start, stop⟩ := next_eq_some_iff.1 step
  have taken : ∀ l ∈ touching, l.text <+: r.rest → token = l.token ∧ lexeme = l.text := by
    rintro l touches ⟨rest, along⟩
    exact form.unique ends (tokenForm_of_touching touches) (endsBefore_of_touching touches rest)
      (split.symm.trans along.symm)
  refine ⟨lexeme, start ▸ (visits.stands.behind split stop).2, ⟨?_, ?_⟩, taken⟩
  · intro written l touches along
    obtain ⟨rfl, rfl⟩ := taken l touches along
    exact not_delimited_of_touching touches written
  · intro apart
    refine form.delimited_or_touching.resolve_right fun touches => apart _ touches ?_
    exact split ▸ List.prefix_append lexeme r'.rest

theorem delimited_iff_of_next_behindText :
    ∃ r r', Visits "é<!-->".toList r ∧ next r = .ok (some .comment) r' ∧
      ∃ lexeme, slice "é<!-->".toList r'.tokenStart r'.offset = Utf8.encode lexeme ∧
        (Delimited .comment lexeme ↔ ∀ l ∈ touching, ¬ l.text <+: r.rest) ∧
        ∀ l ∈ touching, l.text <+: r.rest → .comment = l.token ∧ lexeme = l.text := by
  have text : next (ofText "é<!-->".toList) = .ok (some (.text ['é']))
      ⟨"<!-->".toList, 2, 0, []⟩ := rfl
  have comment : next ⟨"<!-->".toList, 2, 0, []⟩ = .ok (some .comment) ⟨[], 7, 2, []⟩ := rfl
  have visits := Visits.returned .start text
  exact ⟨_, _, visits, comment, delimited_iff_of_next visits comment⟩

/-- A text that is one comment. The reader takes the first five characters for it, and returns the
tag inside as a token. -/
theorem hidden_tag_shows :
    Delimited .comment "<!--><a/>-->".toList ∧
      ∃ r r', next (ofText "<!--><a/>-->".toList) = .ok (some .comment) r ∧
        (∀ lexeme, slice "<!--><a/>-->".toList r.tokenStart r.offset = Utf8.encode lexeme →
          ¬ Delimited .comment lexeme) ∧
        next r = .ok (some (.opening ⟨['a'], [], true⟩)) r' := by
  have whole : Delimited .comment (commentMark ++ "><a/>".toList ++ ['-', '-', '>']) :=
    .comment (by decide)
  have comment : next (ofText "<!--><a/>-->".toList) =
      .ok (some .comment) ⟨"<a/>-->".toList, 5, 0, []⟩ := rfl
  have written : TokenForm (.opening ⟨['a'], [], true⟩) ['<', 'a', '/', '>'] :=
    @TokenForm.opening ['a'] ['/', '>'] [] true (by decide) (@AttributesForm.selfClosing [] rfl)
  have tag : next ⟨"<a/>-->".toList, 5, 0, []⟩ =
      .ok (some (.opening ⟨['a'], [], true⟩)) ⟨"-->".toList, 9, 5, []⟩ :=
    next_eq_some_iff.2 ⟨_, written, trivial, rfl, .leaf rfl, rfl, rfl⟩
  have octets : slice "<!--><a/>-->".toList 0 5 = Utf8.encode "<!-->".toList := by decide +kernel
  refine ⟨whole, _, _, comment, fun lexeme same delimited => ?_, tag⟩
  have short := Utf8.decode_eq_ok_iff.2 (octets.symm.trans same)
  rw [Utf8.decode_encode] at short
  obtain rfl := Except.ok.inj short
  exact absurd delimited.length_comment (by decide)

end Reader

end SectionStore.Markup
