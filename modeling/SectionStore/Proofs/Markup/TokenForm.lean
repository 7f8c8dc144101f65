import SectionStore.Markup.Token.Scan
import SectionStore.Proofs.Text.Cutting

/-!
# How tokens are written

The grammar of tokens, apart from the scanner. `TokenForm token lexeme` says that `lexeme` is a way
to write `token`. Main statement: `scan_eq_ok_iff`, by which the scanner finds a token exactly where
a text goes on in one of the forms of the token; a text token must also not go on behind its lexeme.
-/

namespace SectionStore.Markup

open Cut

/-! ### Names and gaps -/

theorem not_isNameChar_of_isSpace {c : Char} (h : isSpace c = true) : isNameChar c = false := by
  simp only [isSpace, Bool.or_eq_true, beq_iff_eq] at h
  rcases h with ((rfl | rfl) | rfl) | rfl <;> decide

theorem isName_takeName {text : List Char} (named : takeName text ≠ []) :
    isName (takeName text) = true := by
  cases text with
  | nil => exact absurd rfl named
  | cons c rest =>
    cases start : isNameStart c with
    | false => simp [takeName, start] at named
    | true => simp only [takeName, start, if_true, isName, List.all_takeWhile, Bool.and_self]

/-- A name ends before the first character that no name holds. -/
theorem takeName_append {name rest : List Char} (named : isName name = true)
    (stop : StopsAt isNameChar rest) :
    takeName (name ++ rest) = name ∧ dropName (name ++ rest) = rest := by
  cases name with
  | nil => cases named
  | cons c tail =>
    simp only [isName, Bool.and_eq_true, List.all_eq_true] at named
    obtain ⟨e1, e2⟩ := span_append named.2 stop
    simp [takeName, dropName, named.1, e1, e2]

theorem ne_nil_of_isName {name : List Char} (named : isName name = true) : name ≠ [] := by
  rintro rfl
  cases named

/-- Blank text ends before the first character that separates nothing. -/
theorem gap_append {gap rest : List Char} (blank : isBlank gap = true)
    (stop : StopsAt isSpace rest) :
    (gap ++ rest).takeWhile isSpace = gap ∧ (gap ++ rest).dropWhile isSpace = rest :=
  span_append (List.all_eq_true.1 blank) stop

/-- What follows a name after a gap does not continue the name. -/
theorem stopsAt_gap_append {gap rest : List Char} (blank : isBlank gap = true)
    (stop : StopsAt isNameChar rest) : StopsAt isNameChar (gap ++ rest) := by
  cases gap with
  | nil => exact stop
  | cons c gap =>
    rw [List.cons_append, stopsAt_cons]
    exact not_isNameChar_of_isSpace (List.all_eq_true.1 blank c List.mem_cons_self)

/-! ### Attributes -/

/-- How an attribute may be written. -/
inductive AttributeForm : Attribute → List Char → Prop where
  | mk {name before after raw : List Char} {quote : Char} (named : isName name = true)
      (blank : isBlank before = true) (blank' : isBlank after = true)
      (quoted : quote = '"' ∨ quote = '\'') (inside : quote ∉ raw) (plain : '<' ∉ raw) :
      AttributeForm ⟨name, raw⟩
        (name ++ before ++ '=' :: after ++ quote :: raw ++ [quote])

theorem form_of_scanAttribute {text : List Char} {scanned : Scanned Attribute}
    (h : scanAttribute text = .ok scanned) : AttributeForm scanned.value scanned.lexeme := by
  unfold scanAttribute at h
  simp only at h
  split at h
  · cases h
  rename_i named
  split at h
  · split at h
    · cases h
    split at h
    · rename_i quoted
      split at h
      · cases h
      rename_i cut
      split at h
      · cases h
      rename_i plain
      cases h
      exact .mk (isName_takeName named) List.all_takeWhile List.all_takeWhile quoted
        (cutAtChar?_eq_some_iff.1 cut).2 plain
    · cases h
  · cases h

theorem scanAttribute_of_form {a : Attribute} {lexeme : List Char} (form : AttributeForm a lexeme)
    (rest : List Char) : scanAttribute (lexeme ++ rest) = .ok ⟨a, lexeme, rest⟩ := by
  cases form with
  | @mk name before after raw quote named blank blank' quoted inside plain =>
    have equals : StopsAt isSpace ('=' :: (after ++ quote :: (raw ++ quote :: rest))) :=
      stopsAt_cons.2 (by decide)
    have value : StopsAt isSpace (quote :: (raw ++ quote :: rest)) := by
      rcases quoted with rfl | rfl <;> exact stopsAt_cons.2 (by decide)
    have unnamed : StopsAt isNameChar ('=' :: (after ++ quote :: (raw ++ quote :: rest))) :=
      stopsAt_cons.2 (by decide)
    obtain ⟨n1, n2⟩ := takeName_append named (stopsAt_gap_append blank unnamed)
    obtain ⟨b1, b2⟩ := gap_append blank equals
    obtain ⟨a1, a2⟩ := gap_append blank' value
    have cut : cutAtChar? quote (raw ++ quote :: rest) = some (raw, rest) :=
      cutAtChar?_eq_some_iff.2 ⟨rfl, inside⟩
    have shape : name ++ before ++ '=' :: after ++ quote :: raw ++ [quote] ++ rest =
        name ++ (before ++ '=' :: (after ++ quote :: (raw ++ quote :: rest))) := by
      simp
    rw [shape]
    unfold scanAttribute
    simp only [n1, n2, if_neg (ne_nil_of_isName named), b1, b2, a1, a2, if_pos quoted, cut,
      if_neg plain]

/-- How the part of an opening tag behind its name may be written. -/
inductive AttributesForm : List Attribute → Bool → List Char → Prop where
  | selfClosing {gap : List Char} (blank : isBlank gap = true) :
      AttributesForm [] true (gap ++ ['/', '>'])
  | bracket {gap : List Char} (blank : isBlank gap = true) : AttributesForm [] false (gap ++ ['>'])
  | another {gap lexeme lexemes : List Char} {a : Attribute} {as : List Attribute} {closes : Bool}
      (blank : isBlank gap = true) (apart : gap ≠ []) (first : AttributeForm a lexeme)
      (others : AttributesForm as closes lexemes) :
      AttributesForm (a :: as) closes (gap ++ lexeme ++ lexemes)

theorem form_of_scanAttributes {name text : List Char} {scanned : Scanned (List Attribute × Bool)}
    (h : scanAttributes name text = .ok scanned) :
    AttributesForm scanned.value.1 scanned.value.2 scanned.lexeme := by
  induction hn : text.length using Nat.strongRecOn generalizing text scanned with
  | ind n ih =>
    subst hn
    rw [scanAttributes] at h
    simp only at h
    split at h
    · cases h
      exact .selfClosing List.all_takeWhile
    · cases h
      exact .bracket List.all_takeWhile
    · cases h
    · split at h
      · cases h
      rename_i apart
      split at h
      · cases h
      rename_i first hfirst
      split at h
      · cases h
      rename_i others hothers
      cases h
      have short : first.rest.length < text.length :=
        Nat.lt_of_lt_of_le (length_rest_lt_of_scanAttribute hfirst) (Cut.length_dropWhile_le _ _)
      exact .another List.all_takeWhile apart (form_of_scanAttribute hfirst)
        (ih _ short hothers rfl)

/-- An attribute begins with its name. -/
theorem AttributeForm.head {a : Attribute} {lexeme : List Char} (form : AttributeForm a lexeme) :
    ∃ c rest, lexeme = c :: rest ∧ isNameStart c = true := by
  cases form with
  | @mk name before after raw quote named =>
    cases name with
    | nil => cases named
    | cons c tail =>
      simp only [isName, Bool.and_eq_true] at named
      exact ⟨c, _, rfl, named.1⟩

theorem ne_of_isNameStart {c d : Char} (h : isNameStart c = true) (other : isNameStart d = false) :
    c ≠ d := by
  rintro rfl
  rw [h] at other
  cases other

/-- An attribute does not continue the gap in front of it. -/
theorem AttributeForm.stopsAt {a : Attribute} {lexeme : List Char} (form : AttributeForm a lexeme)
    (rest : List Char) : StopsAt isSpace (lexeme ++ rest) := by
  obtain ⟨c, tail, rfl, start⟩ := form.head
  rw [List.cons_append, stopsAt_cons]
  cases h : isSpace c with
  | false => rfl
  | true =>
    have := not_isNameChar_of_isSpace h
    simp [isNameChar, start] at this

theorem scanAttributes_of_form {as : List Attribute} {closes : Bool} {lexeme : List Char}
    (form : AttributesForm as closes lexeme) (name rest : List Char) :
    scanAttributes name (lexeme ++ rest) = .ok ⟨(as, closes), lexeme, rest⟩ := by
  induction form with
  | selfClosing blank =>
    have slash : StopsAt isSpace ('/' :: '>' :: rest) := stopsAt_cons.2 (by decide)
    obtain ⟨e1, e2⟩ := gap_append blank slash
    rw [List.append_assoc, scanAttributes]
    simp only [List.cons_append, List.nil_append, e1, e2]
  | bracket blank =>
    have bracket : StopsAt isSpace ('>' :: rest) := stopsAt_cons.2 (by decide)
    obtain ⟨e1, e2⟩ := gap_append blank bracket
    rw [List.append_assoc, scanAttributes]
    simp only [List.cons_append, List.nil_append, e1, e2]
  | @another gap lexeme lexemes a as closes blank apart first others ih =>
    obtain ⟨e1, e2⟩ := gap_append blank (first.stopsAt (lexemes ++ rest))
    obtain ⟨c, tail, rfl, start⟩ := first.head
    have notSlash := ne_of_isNameStart (d := '/') start (by decide)
    have notBracket := ne_of_isNameStart (d := '>') start (by decide)
    rw [List.append_assoc, List.append_assoc, scanAttributes]
    simp only [e1, e2]
    rw [List.cons_append] at *
    split
    · rename_i h
      exact absurd (List.cons.inj h).1 notSlash
    · rename_i h
      exact absurd (List.cons.inj h).1 notBracket
    · rename_i h
      cases h
    · rename_i h
      rw [if_neg apart]
      split
      · rename_i fault hfault
        rw [e2, ← List.cons_append, scanAttribute_of_form first] at hfault
        cases hfault
      · rename_i scanned hscanned
        rw [e2, ← List.cons_append, scanAttribute_of_form first] at hscanned
        cases hscanned
        rw [ih]

/-- No bracket stands in the value of an attribute. -/
theorem AttributesForm.not_mem_raw {as : List Attribute} {closes : Bool} {lexeme : List Char}
    (form : AttributesForm as closes lexeme) : ∀ a ∈ as, '<' ∉ a.raw := by
  induction form with
  | selfClosing => exact List.forall_mem_nil _
  | bracket => exact List.forall_mem_nil _
  | another _ _ first _ ih =>
    cases first with
    | mk _ _ _ _ _ plain => exact List.forall_mem_cons.2 ⟨plain, ih⟩

/-! ### Tokens -/

/-- How a token may be written. The opening and the end mark of a declaration or a comment may share
characters, so the end mark is only asked not to stand earlier. -/
inductive TokenForm : Token → List Char → Prop where
  | declaration {before : List Char} (begins : ['<', '?'] <+: before ++ ['?', '>'])
      (first : ¬ ['?', '>'] <:+: before) : TokenForm .declaration (before ++ ['?', '>'])
  | comment {before : List Char} (begins : commentMark <+: before ++ ['-', '-', '>'])
      (first : ¬ ['-', '-', '>'] <:+: before) : TokenForm .comment (before ++ ['-', '-', '>'])
  | cdata {content : List Char} (first : ¬ [']', ']', '>'] <:+: content) :
      TokenForm (.cdata content) (cdataMark ++ content ++ [']', ']', '>'])
  | opening {name lexeme : List Char} {as : List Attribute} {closes : Bool}
      (named : isName name = true) (attributes : AttributesForm as closes lexeme) :
      TokenForm (.opening ⟨name, as, closes⟩) ('<' :: name ++ lexeme)
  | closing {name gap : List Char} (named : isName name = true) (blank : isBlank gap = true) :
      TokenForm (.closing name) ('<' :: '/' :: name ++ gap ++ ['>'])
  | text {content : List Char} (nonempty : content ≠ []) (plain : '<' ∉ content) :
      TokenForm (.text content) content

/-- A text that cannot continue character data: it is empty or begins with a bracket. -/
abbrev BeginsMarkup (text : List Char) : Prop :=
  StopsAt (· != '<') text

/-- Does the token end where the text stands? Only character data can go on. -/
def Token.EndsBefore (rest : List Char) : Token → Prop
  | .text _ => BeginsMarkup rest
  | _ => True

theorem closes_declaration : Closes ['?', '>'] := ⟨['?'], '>', rfl, by decide⟩

theorem closes_comment : Closes ['-', '-', '>'] := ⟨['-', '-'], '>', rfl, by decide⟩

theorem closes_cdata : Closes [']', ']', '>'] := ⟨[']', ']'], '>', rfl, by decide⟩

theorem form_of_scanUpTo {text mark : List Char} {token : Token} {awaited : Awaited}
    {scanned : Scanned Token} (closes : Closes mark)
    (h : scanUpTo text mark token awaited = .ok scanned) :
    ∃ before, ¬ mark <:+: before ∧ scanned.value = token ∧ scanned.lexeme = before ++ mark ∧
      text = before ++ mark ++ scanned.rest := by
  unfold scanUpTo at h
  split at h
  · cases h
  · rename_i before after cut
    cases h
    obtain ⟨e, first⟩ := (cutAt?_eq_some_iff closes).1 cut
    exact ⟨before, first, rfl, rfl, e⟩

theorem form_of_scanClosing {tail : List Char} {scanned : Scanned Token}
    (h : scanClosing tail = .ok scanned) :
    TokenForm scanned.value scanned.lexeme ∧ scanned.value.EndsBefore scanned.rest := by
  unfold scanClosing at h
  simp only at h
  split at h
  · cases h
  rename_i named
  split at h
  · cases h
  · cases h
    exact ⟨.closing (isName_takeName named) List.all_takeWhile, trivial⟩
  · cases h

theorem form_of_scanOpening {tail : List Char} {scanned : Scanned Token}
    (h : scanOpening tail = .ok scanned) :
    TokenForm scanned.value scanned.lexeme ∧ scanned.value.EndsBefore scanned.rest := by
  unfold scanOpening at h
  simp only at h
  split at h
  · cases h
  rename_i named
  split at h
  · cases h
  · rename_i inner hinner
    cases h
    exact ⟨.opening (isName_takeName named) (form_of_scanAttributes hinner), trivial⟩

theorem form_of_scan {text : List Char} {scanned : Scanned Token} (nonempty : text ≠ [])
    (h : scan text = .ok scanned) :
    TokenForm scanned.value scanned.lexeme ∧ scanned.value.EndsBefore scanned.rest := by
  unfold scan at h
  split at h
  · rename_i kind
    obtain ⟨before, first, value, lexeme, split⟩ := form_of_scanUpTo closes_declaration h
    have mark : ['<', '?'] <+: text := begins_of_opening kind
    have begins : ['<', '?'] <+: before ++ ['?', '>'] :=
      List.prefix_of_prefix_length_le (split ▸ mark) (List.prefix_append _ _) (by simp)
    rw [value, lexeme]
    exact ⟨.declaration begins first, trivial⟩
  · rename_i kind
    obtain ⟨before, first, value, lexeme, split⟩ := form_of_scanUpTo closes_comment h
    have mark : commentMark <+: text := begins_of_opening kind
    rw [split] at mark
    have bracket : before ≠ [] := by
      rintro rfl
      simp [commentMark] at mark
    have begins : commentMark <+: before ++ ['-', '-', '>'] := by
      refine List.prefix_of_prefix_length_le mark (List.prefix_append _ _) ?_
      have := List.length_pos_iff.2 bracket
      simp [commentMark]
      omega
    rw [value, lexeme]
    exact ⟨.comment begins first, trivial⟩
  · unfold scanCData at h
    split at h
    · cases h
    · rename_i cut
      cases h
      exact ⟨.cdata ((cutAt?_eq_some_iff closes_cdata).1 cut).2, trivial⟩
  · cases h
  · exact form_of_scanClosing h
  · exact form_of_scanOpening h
  · rename_i kind
    cases h
    have head : text.head? ≠ some '<' := begins_of_opening kind
    refine ⟨.text ?_ ?_, stopsAt_dropWhile _ _⟩
    · cases text with
      | nil => exact absurd rfl nonempty
      | cons c rest =>
        have : c ≠ '<' := by simpa using head
        simp [this]
    · intro inside
      have := List.all_eq_true.1 List.all_takeWhile _ inside
      simp at this

theorem scanUpTo_of_form {before mark : List Char} (closes : Closes mark)
    (first : ¬ mark <:+: before) (rest : List Char) (token : Token) (awaited : Awaited) :
    scanUpTo (before ++ mark ++ rest) mark token awaited = .ok ⟨token, before ++ mark, rest⟩ := by
  rw [scanUpTo, (cutAt?_eq_some_iff closes).2 ⟨rfl, first⟩]

theorem scanClosing_of_form {name gap : List Char} (named : isName name = true)
    (blank : isBlank gap = true) (rest : List Char) :
    scanClosing (name ++ gap ++ '>' :: rest) =
      .ok ⟨.closing name, '<' :: '/' :: name ++ gap ++ ['>'], rest⟩ := by
  have unnamed : StopsAt isNameChar ('>' :: rest) := stopsAt_cons.2 (by decide)
  have bracket : StopsAt isSpace ('>' :: rest) := stopsAt_cons.2 (by decide)
  obtain ⟨n1, n2⟩ := takeName_append named (stopsAt_gap_append blank unnamed)
  obtain ⟨g1, g2⟩ := gap_append blank bracket
  rw [List.append_assoc]
  unfold scanClosing
  simp only [n1, n2, if_neg (ne_nil_of_isName named), g1, g2]

/-- What follows the name of an opening tag does not continue the name. -/
theorem AttributesForm.stopsAt {as : List Attribute} {closes : Bool} {lexeme : List Char}
    (form : AttributesForm as closes lexeme) (rest : List Char) :
    StopsAt isNameChar (lexeme ++ rest) := by
  cases form with
  | selfClosing blank =>
    rw [List.append_assoc]
    exact stopsAt_gap_append blank (stopsAt_cons.2 (by decide))
  | bracket blank =>
    rw [List.append_assoc]
    exact stopsAt_gap_append blank (stopsAt_cons.2 (by decide))
  | @another gap lexeme lexemes a as closes blank apart =>
    cases gap with
    | nil => exact absurd rfl apart
    | cons c gap =>
      simp only [List.cons_append, stopsAt_cons]
      exact not_isNameChar_of_isSpace (List.all_eq_true.1 blank c List.mem_cons_self)

theorem scanOpening_of_form {name lexeme : List Char} {as : List Attribute} {closes : Bool}
    (named : isName name = true) (attributes : AttributesForm as closes lexeme)
    (rest : List Char) :
    scanOpening (name ++ (lexeme ++ rest)) =
      .ok ⟨.opening ⟨name, as, closes⟩, '<' :: name ++ lexeme, rest⟩ := by
  obtain ⟨n1, n2⟩ := takeName_append named (attributes.stopsAt rest)
  unfold scanOpening
  simp only [n1, n2, if_neg (ne_nil_of_isName named), scanAttributes_of_form attributes]

theorem opening_eq_start_of_isNameStart {c : Char} (start : isNameStart c = true)
    (rest : List Char) : opening ('<' :: c :: rest) = .start := by
  have h1 := ne_of_isNameStart (d := '?') start (by decide)
  have h2 := ne_of_isNameStart (d := '/') start (by decide)
  have h3 := ne_of_isNameStart (d := '!') start (by decide)
  simp [opening, h1, h2, h3]

theorem scan_of_form {token : Token} {lexeme rest : List Char} (form : TokenForm token lexeme)
    (ends : token.EndsBefore rest) : scan (lexeme ++ rest) = .ok ⟨token, lexeme, rest⟩ := by
  cases form with
  | @declaration before begins first =>
    obtain ⟨tail, shape⟩ := begins
    have kind : opening (before ++ ['?', '>'] ++ rest) = .declaration := by
      rw [← shape]
      rfl
    simp only [scan, kind]
    exact scanUpTo_of_form closes_declaration first rest _ _
  | @comment before begins first =>
    obtain ⟨tail, shape⟩ := begins
    have kind : opening (before ++ ['-', '-', '>'] ++ rest) = .comment := by
      rw [← shape]
      simp [opening, commentMark]
    simp only [scan, kind]
    exact scanUpTo_of_form closes_comment first rest _ _
  | @cdata content first =>
    have cut : cutAt? [']', ']', '>'] (content ++ [']', ']', '>'] ++ rest) = some (content, rest) :=
      (cutAt?_eq_some_iff closes_cdata).2 ⟨rfl, first⟩
    have kind : opening (cdataMark ++ content ++ [']', ']', '>'] ++ rest) = .cdata := by
      simp [opening, commentMark, cdataMark]
    simp only [scan, kind]
    rw [show (cdataMark ++ content ++ [']', ']', '>'] ++ rest).drop cdataMark.length =
      content ++ [']', ']', '>'] ++ rest by simp [cdataMark]]
    rw [scanCData, cut]
  | @opening name lexeme as closes named attributes =>
    have kind : Markup.opening ('<' :: name ++ lexeme ++ rest) = .start := by
      cases name with
      | nil => cases named
      | cons c tail =>
        simp only [isName, Bool.and_eq_true] at named
        exact opening_eq_start_of_isNameStart named.1 _
    simp only [scan, kind]
    simpa using scanOpening_of_form named attributes rest
  | @closing name gap named blank =>
    simp only [scan, Markup.opening, List.cons_append]
    simpa using scanClosing_of_form named blank rest
  | text nonempty plain =>
    have all : ∀ c ∈ lexeme, (c != '<') = true := by
      intro c hc
      rw [bne_iff_ne]
      rintro rfl
      exact plain hc
    have kind : Markup.opening (lexeme ++ rest) = .text := by
      cases lexeme with
      | nil => exact absurd rfl nonempty
      | cons c tail =>
        have other : c ≠ '<' := by simpa using all c List.mem_cons_self
        simp [Markup.opening, other]
    obtain ⟨e1, e2⟩ := span_append all ends
    simp only [scan, kind, e1, e2]

/-- The scanner finds a token where the text goes on in one of its forms. -/
theorem scan_eq_ok_iff {text : List Char} {scanned : Scanned Token} (nonempty : text ≠ []) :
    scan text = .ok scanned ↔
      TokenForm scanned.value scanned.lexeme ∧ scanned.value.EndsBefore scanned.rest ∧
        text = scanned.lexeme ++ scanned.rest := by
  constructor
  · intro h
    obtain ⟨form, ends⟩ := form_of_scan nonempty h
    exact ⟨form, ends, (scan_split nonempty h).1⟩
  · rintro ⟨form, ends, rfl⟩
    exact scan_of_form form ends

theorem TokenForm.ne_nil {token : Token} {lexeme : List Char} (form : TokenForm token lexeme) :
    lexeme ≠ [] := by
  cases form <;> simp [cdataMark]
  assumption

theorem TokenForm.of_text {content lexeme : List Char} (form : TokenForm (.text content) lexeme) :
    lexeme = content ∧ '<' ∉ content := by
  cases form with
  | text _ plain => exact ⟨rfl, plain⟩

theorem TokenForm.not_mem_raw {tag : StartTag} {lexeme : List Char}
    (form : TokenForm (.opening tag) lexeme) : ∀ a ∈ tag.attributes, '<' ∉ a.raw := by
  cases form with
  | opening _ attributes => exact attributes.not_mem_raw

/-- Character data that ends before a text that is not empty ends there whatever follows. -/
theorem Token.EndsBefore.append_of_ne_nil {token : Token} {rest : List Char}
    (ends : token.EndsBefore rest) (nonempty : rest ≠ []) (more : List Char) :
    token.EndsBefore (rest ++ more) := by
  cases token with
  | text content => exact (stopsAt_append nonempty).2 ends
  | _ => trivial

/-- Character data that ends before a text also ends there with markup behind the text. -/
theorem Token.EndsBefore.append {token : Token} {rest more : List Char}
    (ends : token.EndsBefore rest) (begins : BeginsMarkup more) :
    token.EndsBefore (rest ++ more) := by
  by_cases empty : rest = []
  · subst empty
    cases token with
    | text content => exact begins
    | _ => trivial
  · exact ends.append_of_ne_nil empty more

end SectionStore.Markup
