import SectionStore.Markup.Error
import SectionStore.Markup.Name
import SectionStore.Markup.Token
import SectionStore.Text.Cut

/-!
# Scanning one token

`scan` reads the token at the head of a text: the token, the characters it is made of, and the text
behind it. It knows neither offsets nor open elements; a fault carries the text from the place that
it points at. Main statement: `scan_split`, by which lexeme and rest are the text again and the
lexeme is not empty, so that scanning always comes to an end.

A declaration and a comment end at the first end mark after their first character, so the opening
and the end mark may share characters.
-/

namespace SectionStore.Markup

/-- Why no token stands at the head of a text. -/
inductive ScanFault where
  /-- The characters from `here` on cannot be what `fault` asks for. -/
  | stopped (here : List Char) (fault : SyntaxFault)
  /-- The text ends within the token. -/
  | unfinished (awaited : Awaited)
  deriving DecidableEq, Repr

/-- What a successful scan yields: a value, the characters read for it, and the text behind. -/
structure Scanned (α : Type) where
  value : α
  lexeme : List Char
  rest : List Char

/-- What kind of token a text begins with, judged by its first characters. -/
inductive Opening where
  | declaration
  | comment
  | cdata
  | unsupported
  | closing
  | start
  | text
  deriving DecidableEq, Repr

def commentMark : List Char := ['<', '!', '-', '-']
def cdataMark : List Char := ['<', '!', '[', 'C', 'D', 'A', 'T', 'A', '[']

/-- The kind of the token at the head of a text. -/
def opening (text : List Char) : Opening :=
  match text with
  | '<' :: '?' :: _ => .declaration
  | '<' :: '/' :: _ => .closing
  | '<' :: '!' :: _ =>
    if commentMark.isPrefixOf text then .comment
    else if cdataMark.isPrefixOf text then .cdata
    else .unsupported
  | '<' :: _ => .start
  | _ => .text

/-- A token that reaches up to the first place where its end mark stands. -/
def scanUpTo (text mark : List Char) (token : Token) (awaited : Awaited) :
    Except ScanFault (Scanned Token) :=
  match Cut.cutAt? mark text with
  | none => .error (.unfinished awaited)
  | some (before, after) => .ok ⟨token, before ++ mark, after⟩

/-- The CDATA section whose content `body` begins with. -/
def scanCData (body : List Char) : Except ScanFault (Scanned Token) :=
  match Cut.cutAt? [']', ']', '>'] body with
  | none => .error (.unfinished .endOfCData)
  | some (content, after) =>
    .ok ⟨.cdata content, cdataMark ++ content ++ [']', ']', '>'], after⟩

/-- The closing tag whose name `tail` begins with. -/
def scanClosing (tail : List Char) : Except ScanFault (Scanned Token) :=
  let name := takeName tail
  let after := dropName tail
  if name = [] then .error (.stopped tail .tagName)
  else
    match after.dropWhile isSpace with
    | [] => .error (.unfinished (.bracketOfClosing name))
    | '>' :: rest => .ok ⟨.closing name, '<' :: '/' :: name ++ after.takeWhile isSpace ++ ['>'], rest⟩
    | _ => .error (.stopped after .closingBracket)

/-- The attribute that the text begins with. -/
def scanAttribute (text : List Char) : Except ScanFault (Scanned Attribute) :=
  let name := takeName text
  let afterName := dropName text
  if name = [] then .error (.stopped text .attributeName)
  else
    match afterName.dropWhile isSpace with
    | '=' :: afterSign =>
      match afterSign.dropWhile isSpace with
      | [] => .error (.unfinished .attributeValue)
      | quote :: body =>
        if quote = '"' ∨ quote = '\'' then
          match Cut.cutAtChar? quote body with
          | none => .error (.unfinished .closingQuote)
          | some (raw, rest) =>
            if '<' ∈ raw then .error (.stopped body .angleInValue)
            else .ok ⟨⟨name, raw⟩, name ++ afterName.takeWhile isSpace ++ '=' ::
              afterSign.takeWhile isSpace ++ quote :: raw ++ [quote], rest⟩
        else .error (.stopped (quote :: body) .quotedValue)
    | here => .error (.stopped here .equalsSign)

theorem scanAttribute_split {text : List Char} {scanned : Scanned Attribute}
    (h : scanAttribute text = .ok scanned) :
    text = scanned.lexeme ++ scanned.rest ∧ scanned.lexeme ≠ [] := by
  unfold scanAttribute at h
  simp only at h
  split at h
  · cases h
  rename_i named
  split at h
  · rename_i afterSign sign
    split at h
    · cases h
    rename_i quote body value
    split at h
    · split at h
      · cases h
      rename_i raw rest cut
      split at h
      · cases h
      cases h
      refine ⟨?_, by simp⟩
      have e1 := takeName_append_dropName text
      have e2 := List.takeWhile_append_dropWhile (p := isSpace) (l := dropName text)
      have e3 := List.takeWhile_append_dropWhile (p := isSpace) (l := afterSign)
      rw [sign] at e2
      rw [value, Cut.eq_of_cutAtChar? cut] at e3
      rw [← e2, ← e3] at e1
      simpa using e1.symm
    · cases h
  · cases h

theorem length_rest_lt_of_scanAttribute {text : List Char} {scanned : Scanned Attribute}
    (h : scanAttribute text = .ok scanned) : scanned.rest.length < text.length := by
  obtain ⟨split, nonempty⟩ := scanAttribute_split h
  have := List.length_pos_iff.2 nonempty
  rw [split, List.length_append]
  omega

/-- What stands between the name of an opening tag and the text behind the tag: the attributes, and
whether the tag closes itself. -/
def scanAttributes (name text : List Char) : Except ScanFault (Scanned (List Attribute × Bool)) :=
  let spaces := text.takeWhile isSpace
  match text.dropWhile isSpace with
  | '/' :: '>' :: rest => .ok ⟨([], true), spaces ++ ['/', '>'], rest⟩
  | '>' :: rest => .ok ⟨([], false), spaces ++ ['>'], rest⟩
  | [] => .error (.unfinished (.bracketOfOpening name))
  | c :: here =>
    if spaces = [] then .error (.stopped (c :: here) .spaceBeforeAttribute)
    else
      match h : scanAttribute (text.dropWhile isSpace) with
      | .error fault => .error fault
      | .ok first =>
        have : first.rest.length < text.length :=
          Nat.lt_of_lt_of_le (length_rest_lt_of_scanAttribute h) (Cut.length_dropWhile_le _ _)
        match scanAttributes name first.rest with
        | .error fault => .error fault
        | .ok others => .ok ⟨(first.value :: others.value.1, others.value.2),
            spaces ++ first.lexeme ++ others.lexeme, others.rest⟩
termination_by text.length

theorem scanAttributes_split {name text : List Char} {scanned : Scanned (List Attribute × Bool)}
    (h : scanAttributes name text = .ok scanned) :
    text = scanned.lexeme ++ scanned.rest ∧ scanned.lexeme ≠ [] := by
  induction hn : text.length using Nat.strongRecOn generalizing text scanned with
  | ind n ih =>
    subst hn
    have parts := List.takeWhile_append_dropWhile (p := isSpace) (l := text)
    rw [scanAttributes] at h
    simp only at h
    split at h
    · cases h
      rename_i rest mark
      refine ⟨?_, by simp⟩
      rw [mark] at parts
      simpa using parts.symm
    · cases h
      rename_i rest mark
      refine ⟨?_, by simp⟩
      rw [mark] at parts
      simpa using parts.symm
    · cases h
    · split at h
      · cases h
      split at h
      · cases h
      rename_i first hfirst
      split at h
      · cases h
      rename_i others hothers
      cases h
      obtain ⟨e1, n1⟩ := scanAttribute_split hfirst
      have short : first.rest.length < text.length :=
        Nat.lt_of_lt_of_le (length_rest_lt_of_scanAttribute hfirst) (Cut.length_dropWhile_le _ _)
      obtain ⟨e2, n2⟩ := ih first.rest.length short hothers rfl
      refine ⟨?_, by simp [n1]⟩
      rw [e1, e2] at parts
      simpa using parts.symm

/-- The opening tag whose name `tail` begins with. -/
def scanOpening (tail : List Char) : Except ScanFault (Scanned Token) :=
  let name := takeName tail
  if name = [] then .error (.stopped tail .tagName)
  else
    match scanAttributes name (dropName tail) with
    | .error fault => .error fault
    | .ok scanned => .ok ⟨.opening ⟨name, scanned.value.1, scanned.value.2⟩,
        '<' :: name ++ scanned.lexeme, scanned.rest⟩

/-- The token at the head of a text that is not empty. -/
def scan (text : List Char) : Except ScanFault (Scanned Token) :=
  match opening text with
  | .declaration => scanUpTo text ['?', '>'] .declaration .endOfDeclaration
  | .comment => scanUpTo text ['-', '-', '>'] .comment .endOfComment
  | .cdata => scanCData (text.drop cdataMark.length)
  | .unsupported => .error (.stopped text .unsupportedDeclaration)
  | .closing => scanClosing (text.drop 2)
  | .start => scanOpening (text.drop 1)
  | .text =>
    let content := text.takeWhile (· != '<')
    .ok ⟨.text content, content, text.dropWhile (· != '<')⟩

theorem scanUpTo_split {text mark : List Char} {token : Token} {awaited : Awaited}
    {scanned : Scanned Token} (marked : mark ≠ [])
    (h : scanUpTo text mark token awaited = .ok scanned) :
    text = scanned.lexeme ++ scanned.rest ∧ scanned.lexeme ≠ [] := by
  unfold scanUpTo at h
  split at h
  · cases h
  · rename_i cut
    cases h
    exact ⟨Cut.eq_of_cutAt? cut, by simp [marked]⟩

theorem scanCData_split {body : List Char} {scanned : Scanned Token}
    (h : scanCData body = .ok scanned) :
    cdataMark ++ body = scanned.lexeme ++ scanned.rest ∧ scanned.lexeme ≠ [] := by
  unfold scanCData at h
  split at h
  · cases h
  · rename_i cut
    cases h
    exact ⟨by simp [Cut.eq_of_cutAt? cut], by simp [cdataMark]⟩

theorem scanClosing_split {tail : List Char} {scanned : Scanned Token}
    (h : scanClosing tail = .ok scanned) :
    '<' :: '/' :: tail = scanned.lexeme ++ scanned.rest ∧ scanned.lexeme ≠ [] := by
  unfold scanClosing at h
  simp only at h
  split at h
  · cases h
  split at h
  · cases h
  · rename_i rest bracket
    cases h
    refine ⟨?_, by simp⟩
    have e1 := takeName_append_dropName tail
    have e2 := List.takeWhile_append_dropWhile (p := isSpace) (l := dropName tail)
    rw [bracket] at e2
    rw [← e2] at e1
    simpa using e1.symm
  · cases h

theorem scanOpening_split {tail : List Char} {scanned : Scanned Token}
    (h : scanOpening tail = .ok scanned) :
    '<' :: tail = scanned.lexeme ++ scanned.rest ∧ scanned.lexeme ≠ [] := by
  unfold scanOpening at h
  simp only at h
  split at h
  · cases h
  split at h
  · cases h
  · rename_i inner hinner
    cases h
    refine ⟨?_, by simp⟩
    have e1 := takeName_append_dropName tail
    rw [(scanAttributes_split hinner).1] at e1
    simpa using e1.symm

/-- What the characters begin with if their first token is of this kind. -/
def Opening.Begins : Opening → List Char → Prop
  | .declaration, cs => ['<', '?'] <+: cs
  | .comment, cs => commentMark <+: cs
  | .cdata, cs => cdataMark <+: cs
  | .unsupported, cs => ['<', '!'] <+: cs
  | .closing, cs => ['<', '/'] <+: cs
  | .start, cs => ['<'] <+: cs
  | .text, cs => cs.head? ≠ some '<'

theorem begins_of_opening {text : List Char} {kind : Opening} (h : opening text = kind) :
    kind.Begins text := by
  subst h
  unfold opening
  split
  · exact ⟨_, rfl⟩
  · exact ⟨_, rfl⟩
  · split
    · rename_i comment
      exact List.isPrefixOf_iff_prefix.1 comment
    · split
      · rename_i cdata
        exact List.isPrefixOf_iff_prefix.1 cdata
      · exact ⟨_, rfl⟩
  · exact ⟨_, rfl⟩
  · rename_i other
    intro bracket
    obtain ⟨rest, rfl⟩ := List.head?_eq_some_iff.1 bracket
    exact other rest rfl

/-- Lexeme and rest are the text that was scanned, and the lexeme is not empty. -/
theorem scan_split {text : List Char} {scanned : Scanned Token} (nonempty : text ≠ [])
    (h : scan text = .ok scanned) : text = scanned.lexeme ++ scanned.rest ∧ scanned.lexeme ≠ [] := by
  unfold scan at h
  split at h
  · exact scanUpTo_split (by simp) h
  · exact scanUpTo_split (by simp) h
  · rename_i kind
    obtain ⟨after, rfl⟩ := begins_of_opening kind
    rw [List.drop_left] at h
    exact scanCData_split h
  · cases h
  · rename_i kind
    obtain ⟨after, rfl⟩ := begins_of_opening kind
    exact scanClosing_split h
  · rename_i kind
    obtain ⟨after, rfl⟩ := begins_of_opening kind
    exact scanOpening_split h
  · rename_i kind
    cases h
    refine ⟨List.takeWhile_append_dropWhile.symm, ?_⟩
    have head : text.head? ≠ some '<' := begins_of_opening kind
    cases text with
    | nil => exact absurd rfl nonempty
    | cons c rest =>
      have : c ≠ '<' := by simpa using head
      simp [this]

theorem length_rest_lt_of_scan {text : List Char} {scanned : Scanned Token} (nonempty : text ≠ [])
    (h : scan text = .ok scanned) : scanned.rest.length < text.length := by
  obtain ⟨split, lexeme⟩ := scan_split nonempty h
  have := List.length_pos_iff.2 lexeme
  have := congrArg List.length split
  simp only [List.length_append] at this
  omega

end SectionStore.Markup
