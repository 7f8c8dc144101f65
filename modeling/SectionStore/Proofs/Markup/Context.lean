import SectionStore.Markup.Fragment
import SectionStore.Proofs.Markup.Reading
import SectionStore.Proofs.Markup.Written

/-!
# Content within a document

A payload is checked alone, but read back inside an element of a document. `Reader.Within` relates
the two readers: the one in the document has the same text before it and more behind it, and more
elements open around it. Every step of the first is a step of the second (`Within.step`), so checked
content is read back as it stands, up to the closing tag of the element around it
(`content_of_checkRest`).

`Reader.At` says where a reader stands, offsets aside; the lemmas about it read one token that the
text is known to go on with.
-/

namespace SectionStore.Markup.Reader

open Cut

/-! ### One token of a known text -/

/-- The reader stands before `rest`, with the elements `opened` around it. -/
structure At (rest : List Char) (opened : List (List Char)) (r : Reader) : Prop where
  rest : r.rest = rest
  opened : r.opened = opened

theorem nextScanned_opening {tag : StartTag} {lexeme rest : List Char} {opened : List (List Char)}
    {r : Reader} (form : TokenForm (.opening tag) lexeme) (here : At (lexeme ++ rest) opened r) :
    ∃ r', nextScanned r = .ok (some ⟨.opening tag, lexeme, rest⟩) r' ∧
      At rest (if tag.selfClosing then opened else tag.name :: opened) r' := by
  obtain ⟨hrest, rfl⟩ := here
  have nonempty : r.rest ≠ [] := by
    rw [hrest]
    exact List.append_ne_nil_of_left_ne_nil form.ne_nil _
  have found : scan r.rest = .ok ⟨.opening tag, lexeme, rest⟩ := by
    rw [hrest]
    exact scan_of_form form trivial
  refine ⟨r.pass ⟨.opening tag, lexeme, rest⟩
    (if tag.selfClosing then r.opened else tag.name :: r.opened), ?_, rfl, rfl⟩
  simp only [nextScanned, if_neg nonempty, found]

theorem nextScanned_closing {name lexeme rest : List Char} {outer : List (List Char)} {r : Reader}
    (form : TokenForm (.closing name) lexeme) (here : At (lexeme ++ rest) (name :: outer) r) :
    ∃ r', nextScanned r = .ok (some ⟨.closing name, lexeme, rest⟩) r' ∧ At rest outer r' := by
  obtain ⟨hrest, hopened⟩ := here
  have nonempty : r.rest ≠ [] := by
    rw [hrest]
    exact List.append_ne_nil_of_left_ne_nil form.ne_nil _
  have found : scan r.rest = .ok ⟨.closing name, lexeme, rest⟩ := by
    rw [hrest]
    exact scan_of_form form trivial
  refine ⟨r.pass ⟨.closing name, lexeme, rest⟩ outer, ?_, rfl, rfl⟩
  simp only [nextScanned, if_neg nonempty, found, hopened, if_true]

/-- Is the token a tag? Only tags change which elements are open. -/
def isTag : Token → Bool
  | .opening _ => true
  | .closing _ => true
  | _ => false

theorem nextScanned_other {token : Token} {lexeme rest : List Char} {opened : List (List Char)}
    {r : Reader} (form : TokenForm token lexeme) (ends : token.EndsBefore rest)
    (other : isTag token = false) (here : At (lexeme ++ rest) opened r) :
    ∃ r', nextScanned r = .ok (some ⟨token, lexeme, rest⟩) r' ∧ At rest opened r' := by
  obtain ⟨hrest, rfl⟩ := here
  have nonempty : r.rest ≠ [] := by
    rw [hrest]
    exact List.append_ne_nil_of_left_ne_nil form.ne_nil _
  have found : scan r.rest = .ok ⟨token, lexeme, rest⟩ := by
    rw [hrest]
    exact scan_of_form form ends
  refine ⟨r.pass ⟨token, lexeme, rest⟩ r.opened, ?_, rfl, rfl⟩
  simp only [nextScanned, if_neg nonempty, found]
  cases token with
  | opening tag => cases other
  | closing name => cases other
  | _ => rfl

theorem nextScanned_end {opened : List (List Char)} {r : Reader} (here : At [] opened r) :
    nextScanned r = .ok none r := by
  rw [nextScanned, if_pos here.rest]

/-! ### One child of a known text -/

theorem nextChild_opening {tag : StartTag} {lexeme rest : List Char} {opened : List (List Char)}
    {r : Reader} (form : TokenForm (.opening tag) lexeme) (here : At (lexeme ++ rest) opened r) :
    ∃ r', nextChild r = .ok (some tag) r' ∧
      At rest (if tag.selfClosing then opened else tag.name :: opened) r' := by
  obtain ⟨r', step, there⟩ := nextScanned_opening form here
  refine ⟨r', ?_, there⟩
  rw [nextChild]
  split <;> simp_all

theorem nextChild_closing {name lexeme rest : List Char} {outer : List (List Char)} {r : Reader}
    (form : TokenForm (.closing name) lexeme) (here : At (lexeme ++ rest) (name :: outer) r) :
    ∃ r', nextChild r = .ok none r' ∧ At rest outer r' := by
  obtain ⟨r', step, there⟩ := nextScanned_closing form here
  refine ⟨r', ?_, there⟩
  rw [nextChild]
  split <;> simp_all

/-- Children are looked for behind blank text. -/
theorem nextChild_blank {gap rest : List Char} {opened : List (List Char)} {r : Reader}
    (blank : isBlank gap = true) (nonempty : gap ≠ []) (begins : BeginsMarkup rest)
    (here : At (gap ++ rest) opened r) : ∃ r', nextChild r = nextChild r' ∧ At rest opened r' := by
  obtain ⟨r', step, there⟩ := nextScanned_other (form_blank blank nonempty) begins rfl here
  refine ⟨r', ?_, there⟩
  rw [nextChild]
  split <;> simp_all

/-! ### The same token with more around it -/

/-- `whole` stands where `part` stands, with `more` behind the text and `outer` around it. -/
structure Within (more : List Char) (outer : List (List Char)) (part whole : Reader) : Prop where
  rest : whole.rest = part.rest ++ more
  opened : whole.opened = part.opened ++ outer

/-- A token that was read alone is read in the document, if it still ends where it ended, and the
readers still go together. -/
theorem Within.step_of_endsBefore {more : List Char} {outer : List (List Char)}
    {part part' whole : Reader} {scanned : Scanned Token}
    (within : Within more outer part whole) (h : nextScanned part = .ok (some scanned) part')
    (ends : scanned.value.EndsBefore (scanned.rest ++ more)) :
    ∃ whole', nextScanned whole =
        .ok (some ⟨scanned.value, scanned.lexeme, scanned.rest ++ more⟩) whole' ∧
      Within more outer part' whole' := by
  obtain ⟨nonempty, found, moves, passed⟩ := nextScanned_eq_some_iff.1 h
  obtain ⟨form, -, split⟩ := (scan_eq_ok_iff nonempty).1 found
  have whole_rest : whole.rest = scanned.lexeme ++ (scanned.rest ++ more) := by
    rw [within.rest, split, List.append_assoc]
  have nonempty' : whole.rest ≠ [] := by
    rw [whole_rest]
    exact List.append_ne_nil_of_left_ne_nil form.ne_nil _
  have found' : scan whole.rest = .ok ⟨scanned.value, scanned.lexeme, scanned.rest ++ more⟩ := by
    rw [whole_rest]
    exact scan_of_form form ends
  have moves' : scanned.value.Moves whole.opened (part'.opened ++ outer) := by
    rw [within.opened]
    exact moves.append outer
  refine ⟨whole.pass ⟨scanned.value, scanned.lexeme, scanned.rest ++ more⟩ (part'.opened ++ outer),
    nextScanned_eq_some_iff.2 ⟨nonempty', found', moves', rfl⟩, ?_, rfl⟩
  rw [passed]
  rfl

/-- Markup behind the text lets every token end where it ended. -/
theorem Within.step {more : List Char} {outer : List (List Char)} {part part' whole : Reader}
    {scanned : Scanned Token} (begins : BeginsMarkup more) (within : Within more outer part whole)
    (h : nextScanned part = .ok (some scanned) part') :
    ∃ whole', nextScanned whole =
        .ok (some ⟨scanned.value, scanned.lexeme, scanned.rest ++ more⟩) whole' ∧
      Within more outer part' whole' := by
  obtain ⟨nonempty, found, -⟩ := nextScanned_eq_some h
  exact within.step_of_endsBefore h ((form_of_scan nonempty found).2.append begins)

/-- What was read alone is read in the document, as far as the last token that was read still ends
where it ended. Every token before it has text behind it, and ends there anyway. -/
theorem Within.reads {more : List Char} {outer : List (List Char)} {part part' whole : Reader}
    {lexemes : List Lexeme} (within : Within more outer part whole)
    (reads : Reads part lexemes part')
    (ends : ∀ l ∈ lexemes.getLast?, l.token.EndsBefore (part'.rest ++ more)) :
    ∃ whole', Reads whole lexemes whole' ∧ Within more outer part' whole' := by
  induction reads generalizing whole with
  | nil r => exact ⟨whole, .nil whole, within⟩
  | @cons part part₁ part' scanned lexemes step others ih =>
    obtain ⟨nonempty, found, hrest, -⟩ := nextScanned_eq_some step
    have first : scanned.value.EndsBefore (scanned.rest ++ more) := by
      rw [← hrest]
      cases others with
      | nil => exact ends _ rfl
      | cons step' others =>
        have ends' := (form_of_scan nonempty found).2
        rw [← hrest] at ends'
        exact ends'.append_of_ne_nil (nextScanned_eq_some step').1 more
    obtain ⟨whole₁, step', within₁⟩ := within.step_of_endsBefore step first
    have ends' : ∀ l ∈ lexemes.getLast?, l.token.EndsBefore (part'.rest ++ more) := by
      intro l last
      refine ends l ?_
      rw [List.getLast?_cons, Option.mem_def.1 last]
      rfl
    obtain ⟨whole', reads', within'⟩ := ih within₁ ends'
    exact ⟨whole', (Reads.single step').append reads', within'⟩

/-! ### Whole elements -/

theorem contentDownTo_of_step {r r' : Reader} {scanned : Scanned Token}
    (step : nextScanned r = .ok (some scanned) r') (outer : Nat) (name : List Char) :
    contentDownTo outer name r =
      if scanned.value.isClosing ∧ r'.depth = outer then .ok [] r'
      else match contentDownTo outer name r' with
        | .error e r'' => .error e r''
        | .ok content r'' => .ok (scanned.lexeme ++ content) r'' := by
  rw [contentDownTo]
  split
  · rename_i fault
    rw [step] at fault
    cases fault
  · rename_i fault
    rw [step] at fault
    cases fault
  · rename_i found
    rw [step] at found
    cases found
    rfl

/-- Content that is well-formed alone is read back inside an element, with the closing tag of that
element behind it. -/
theorem content_of_checkRest {name after : List Char} {outer : List (List Char)}
    {part whole : Reader} (named : isName name = true) (checked : checkRest part = .ok ())
    (within : Within (closeTag name ++ after) (name :: outer) part whole) :
    ∃ whole', contentDownTo outer.length name whole = .ok part.rest whole' ∧
      At after outer whole' := by
  induction hn : part.left using Nat.strongRecOn generalizing part whole with
  | ind n ih =>
    subst hn
    rw [checkRest] at checked
    split at checked
    · cases checked
    · rename_i part' step
      split at checked
      · rename_i noneOpen
        -- the text ends with no element open, so the next token closes the element around it
        obtain ⟨ended, rfl⟩ := nextScanned_eq_none_iff.1 step
        have closed : part'.opened = [] := by
          unfold endError? at noneOpen
          cases opened : part'.opened with
          | nil => rfl
          | cons innermost rest => simp [opened] at noneOpen
        have here : At (closeTag name ++ after) (name :: outer) whole := by
          constructor
          · rw [within.rest, ended, List.nil_append]
          · rw [within.opened, closed, List.nil_append]
        obtain ⟨whole', closing, there⟩ := nextScanned_closing (form_closeTag named) here
        refine ⟨whole', ?_, there⟩
        rw [contentDownTo_of_step closing, if_pos ⟨rfl, congrArg List.length there.opened⟩, ended]
      · cases checked
    · rename_i scanned part' step
      have short := left_lt step
      simp only at checked
      split at checked
      · cases checked
      obtain ⟨whole', step', within'⟩ := within.step (beginsMarkup_closeTag name after) step
      obtain ⟨whole'', rest, there⟩ := ih _ short checked within' rfl
      refine ⟨whole'', ?_, there⟩
      have deeper : whole'.depth ≠ outer.length := by
        rw [depth, within'.opened, List.length_append, List.length_cons]
        omega
      obtain ⟨nonempty, found, hrest, -, -⟩ := nextScanned_eq_some step
      rw [contentDownTo_of_step step', if_neg fun h => deeper h.2, rest]
      rw [(scan_split nonempty found).1, hrest]

end SectionStore.Markup.Reader
