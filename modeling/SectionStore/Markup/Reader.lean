import SectionStore.Markup.Escape
import SectionStore.Markup.Token.Scan
import SectionStore.Progress

/-!
# Reading a document token by token

A `Reader` holds what is left of a document, how far it has come, and the names of the elements
that are open. Its operations keep the reader also when they fail, so that reading can go on after
an error. `next` delivers one token and checks closing tags against the open elements; `nextChild`
and `elementContent` are loops over it, which end because every token takes at least one character
off the text (`Reader.left_lt`).
-/

namespace SectionStore.Markup

/-- A position in a document. -/
structure Reader where
  /-- The text not read yet. -/
  rest : List Char
  /-- The number of octets read. -/
  offset : Nat
  /-- The offset at which the last token began. -/
  tokenStart : Nat
  /-- The names of the open elements, the innermost first. -/
  opened : List (List Char)
  deriving DecidableEq, Repr

/-- An operation of a reader. -/
abbrev Read (α : Type) := EStateM Error Reader α

namespace Reader

/-- A reader at the beginning of a text. -/
def ofText (text : List Char) : Reader :=
  ⟨text, 0, 0, []⟩

/-- The number of characters not read yet. -/
def left (r : Reader) : Nat :=
  r.rest.length

/-- The number of open elements. -/
def depth (r : Reader) : Nat :=
  r.opened.length

/-- The error of a scan that failed at the head of the text not read yet. -/
def errorOf (r : Reader) : ScanFault → Error
  | .stopped here fault => .syntaxError (r.offset + (Utf8.size r.rest - Utf8.size here)) fault
  | .unfinished awaited => .unexpectedEnd awaited

/-- The reader behind a scanned token. -/
def pass (r : Reader) (scanned : Scanned Token) (opened : List (List Char)) : Reader :=
  ⟨scanned.rest, r.offset + Utf8.size scanned.lexeme, r.offset, opened⟩

/-- The next token with the characters it is made of, `none` at the end of the text. A closing tag
that closes no element takes the innermost one off nevertheless. -/
def nextScanned : Read (Option (Scanned Token)) := fun r =>
  if r.rest = [] then .ok none r
  else
    let start : Reader := ⟨r.rest, r.offset, r.offset, r.opened⟩
    match scan r.rest with
    | .error fault => .error (r.errorOf fault) start
    | .ok scanned =>
      match scanned.value with
      | .opening tag =>
        let opened := if tag.selfClosing then r.opened else tag.name :: r.opened
        .ok (some scanned) (r.pass scanned opened)
      | .closing name =>
        match r.opened with
        | [] => .error (.syntaxError r.offset (.notOpened name)) start
        | innermost :: outer =>
          if innermost = name then .ok (some scanned) (r.pass scanned outer)
          else .error (.mismatchedTag r.offset innermost name) ⟨r.rest, r.offset, r.offset, outer⟩
      | _ => .ok (some scanned) (r.pass scanned r.opened)

/-- The next token, `none` at the end of the text. -/
def next : Read (Option Token) := fun r =>
  match nextScanned r with
  | .ok scanned r' => .ok (scanned.map (·.value)) r'
  | .error e r' => .error e r'

theorem nextScanned_eq_none_iff {r r' : Reader} :
    nextScanned r = .ok none r' ↔ r.rest = [] ∧ r' = r := by
  unfold nextScanned
  constructor
  · intro h
    split at h
    · rename_i ended
      cases h
      exact ⟨ended, rfl⟩
    · simp only at h
      repeat' split at h
      all_goals cases h
  · rintro ⟨ended, rfl⟩
    rw [if_pos ended]

theorem nextScanned_eq_some {r r' : Reader} {scanned : Scanned Token}
    (h : nextScanned r = .ok (some scanned) r') :
    r.rest ≠ [] ∧ scan r.rest = .ok scanned ∧ r'.rest = scanned.rest ∧
      r'.offset = r.offset + Utf8.size scanned.lexeme ∧ r'.tokenStart = r.offset := by
  unfold nextScanned at h
  split at h
  · cases h
  rename_i nonempty
  simp only at h
  split at h
  · cases h
  rename_i s hs
  split at h
  · cases h
    exact ⟨nonempty, hs, rfl, rfl, rfl⟩
  · split at h
    · cases h
    · split at h
      · cases h
        exact ⟨nonempty, hs, rfl, rfl, rfl⟩
      · cases h
  · cases h
    exact ⟨nonempty, hs, rfl, rfl, rfl⟩

theorem left_lt {r r' : Reader} {scanned : Scanned Token}
    (h : nextScanned r = .ok (some scanned) r') : r'.left < r.left := by
  obtain ⟨nonempty, hs, hr, -, -⟩ := nextScanned_eq_some h
  rw [left, left, hr]
  exact length_rest_lt_of_scan nonempty hs

/-- The error of a text that ends while elements are open. -/
def endError? (r : Reader) : Option Error :=
  r.opened.head?.map fun name => .unexpectedEnd (.closingTag name)

/-- The next child of the element that is open at the reader's position, `none` behind the closing
tag of that element or at the end of a text without open elements. -/
def nextChild : Read (Option StartTag) := fun r =>
  match h : nextScanned r with
  | .error e r' => .error e r'
  | .ok none r' =>
    match r'.endError? with
    | none => .ok none r'
    | some e => .error e r'
  | .ok (some scanned) r' =>
    have := left_lt h
    match scanned.value with
    | .opening tag => .ok (some tag) r'
    | .closing _ => .ok none r'
    | .declaration | .comment => nextChild r'
    | .text content =>
      if isBlank content then nextChild r' else .error (.unexpectedText r'.tokenStart) r'
    | .cdata _ => .error (.unexpectedText r'.tokenStart) r'
termination_by r => r.left

/-- What stands before the closing tag that brings the number of open elements down to `outer`.
The closing tag is read too. -/
def contentDownTo (outer : Nat) (name : List Char) : Read (List Char) := fun r =>
  match h : nextScanned r with
  | .error e r' => .error e r'
  | .ok none r' => .error (.unexpectedEnd (.closingTag name)) r'
  | .ok (some scanned) r' =>
    have := left_lt h
    if scanned.value.isClosing ∧ r'.depth = outer then .ok [] r'
    else
      match contentDownTo outer name r' with
      | .error e r'' => .error e r''
      | .ok content r'' => .ok (scanned.lexeme ++ content) r''
termination_by r => r.left

/-- The content of the element that `tag` opens, as it stands in the document, up to and including
its closing tag. The tag is meant to be the token just read. -/
def elementContent (tag : StartTag) : Read (List Char) := fun r =>
  if tag.selfClosing then .ok [] r else contentDownTo (r.depth - 1) tag.name r

/-- Reads over the element that `tag` opens. -/
def skipElement (tag : StartTag) : Read Unit := do
  let _ ← elementContent tag

theorem left_lt_of_nextChild {r r' : Reader} {tag : StartTag}
    (h : nextChild r = .ok (some tag) r') : r'.left < r.left := by
  induction hn : r.left using Nat.strongRecOn generalizing r with
  | ind n ih =>
    subst hn
    rw [nextChild] at h
    split at h
    · cases h
    · split at h <;> cases h
    · rename_i scanned r₁ step
      have short := left_lt step
      simp only at h
      split at h
      · cases h
        exact short
      · cases h
      · exact Nat.lt_trans (ih _ short h rfl) short
      · exact Nat.lt_trans (ih _ short h rfl) short
      · split at h
        · exact Nat.lt_trans (ih _ short h rfl) short
        · cases h
      · cases h

theorem nextChild_shrinks : Shrinks left nextChild := by
  intro r r' child h
  induction hn : r.left using Nat.strongRecOn generalizing r with
  | ind n ih =>
    subst hn
    rw [nextChild] at h
    split at h
    · cases h
    · rename_i r₁ step
      obtain ⟨-, rfl⟩ := nextScanned_eq_none_iff.1 step
      split at h
      · cases h
        exact Nat.le_refl _
      · cases h
    · rename_i scanned r₁ step
      have short := left_lt step
      simp only at h
      split at h
      · cases h
        exact Nat.le_of_lt short
      · cases h
        exact Nat.le_of_lt short
      · exact Nat.le_trans (ih _ short h rfl) (Nat.le_of_lt short)
      · exact Nat.le_trans (ih _ short h rfl) (Nat.le_of_lt short)
      · split at h
        · exact Nat.le_trans (ih _ short h rfl) (Nat.le_of_lt short)
        · cases h
      · cases h

theorem contentDownTo_shrinks (outer : Nat) (name : List Char) :
    Shrinks left (contentDownTo outer name) := by
  intro r r' content h
  induction hn : r.left using Nat.strongRecOn generalizing r content with
  | ind n ih =>
    subst hn
    rw [contentDownTo] at h
    split at h
    · cases h
    · cases h
    · rename_i scanned r₁ step
      have short := left_lt step
      simp only at h
      split at h
      · cases h
        exact Nat.le_of_lt short
      · split at h
        · cases h
        · rename_i rec
          cases h
          exact Nat.le_trans (ih _ short rec rfl) (Nat.le_of_lt short)

theorem elementContent_shrinks (tag : StartTag) : Shrinks left (elementContent tag) := by
  intro r r' content h
  unfold elementContent at h
  split at h
  · cases h
    exact Nat.le_refl _
  · exact contentDownTo_shrinks _ _ h

theorem skipElement_shrinks (tag : StartTag) : Shrinks left (skipElement tag) :=
  .bind (elementContent_shrinks tag) fun _ => .pure _

end Reader

end SectionStore.Markup
