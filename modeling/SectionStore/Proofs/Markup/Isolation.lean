import SectionStore.Proofs.Markup.Fragment
import SectionStore.Proofs.Markup.Retrying

/-!
# The content of an element by itself

The content of an element is the text that can be read alone, to its end and with no element open
then, and that has a closing tag of the element behind it (`ContentBefore`). The reader inside the
document tells the end of the content by the number of open elements only, so it has to be shown
that both readers go together: what is read inside is read alone (`Reads.alone`), and what is read
alone unwinds to no open element (`unwinds_of_reads`), so that it is read inside up to the closing tag
behind it (`ContentBefore.reads`). Main statement: `elementContent_isolated`.
-/

namespace SectionStore.Markup.Reader

open Cut

variable {r r₁ r₂ r' : Reader} {tag : StartTag} {text content name : List Char}
  {lexemes : List Lexeme}

/-! ### Reading to the end -/

/-- The tokens of a reading are those that the calls return. -/
theorem calls_of_reads (reads : Reads r lexemes r') :
    calls lexemes.length r = (lexemes.map fun l => .ok (some l.token), r') := by
  induction reads with
  | nil r => rfl
  | @cons r r₁ r' scanned lexemes step _ ih =>
    have returned : next r = .ok (some scanned.value) r₁ :=
      next_eq_some_iff_nextScanned.2 ⟨scanned, step, rfl⟩
    rw [List.length_cons, calls, returned]
    simp only [ih, List.map_cons]

/-- A reading to the end of the text is what calling until there is no token comes to. -/
theorem exhaust_of_reads (reads : Reads r lexemes r') (ended : r'.rest = []) :
    r.exhaust.fault = none ∧ r.exhaust.last = r' ∧
      r.exhaust.taken.map (·.token) = lexemes.map (·.token) := by
  induction reads with
  | nil r =>
    have last : next r = .ok none r := by
      rw [next, nextScanned_eq_none_iff.2 ⟨ended, rfl⟩]
      rfl
    rw [exhaust_eq last]
    exact ⟨rfl, rfl, rfl⟩
  | @cons r r₁ r' scanned lexemes step _ ih =>
    obtain ⟨fault, last, taken⟩ := ih ended
    rw [exhaust_eq (next_eq_some_iff_nextScanned.2 ⟨scanned, step, rfl⟩)]
    exact ⟨fault, last, by rw [List.map_cons, List.map_cons, taken]⟩

/-- Without a fault the calls read to the end of the text. -/
theorem reads_of_exhaust (whole : r.exhaust.fault = none) :
    ∃ lexemes, Reads r lexemes r.exhaust.last ∧ r.exhaust.last.rest = [] := by
  induction r using Reader.exhaust.induct with
  | case1 r e r' step =>
    rw [exhaust_eq step] at whole
    cases whole
  | case2 r r' step =>
    rw [exhaust_eq step]
    obtain ⟨ended, rfl⟩ := ended_of_next step
    exact ⟨[], .nil r', ended⟩
  | case3 r token r' step _ ih =>
    rw [exhaust_eq step] at whole ⊢
    obtain ⟨lexemes, reads, ended⟩ := ih whole
    obtain ⟨scanned, step, -⟩ := next_eq_some_iff_nextScanned.1 step
    exact ⟨_, .cons step reads, ended⟩

/-! ### Content alone and inside -/

/-- What is read until no element is open any more unwinds the elements that were open. -/
theorem unwinds_of_reads (reads : Reads r lexemes r') (closed : r'.opened = []) :
    Unwinds r.opened lexemes := by
  induction reads with
  | nil r =>
    rw [closed]
    exact Content.nil
  | @cons r r₁ r' scanned lexemes step _ ih =>
    have moves := moves_of_step step
    have unwinds := ih closed
    generalize r.opened = before at moves ⊢
    generalize r₁.opened = behind at moves unwinds
    generalize scanned.value = token at moves ⊢
    cases moves with
    | leaf leaf => exact unwinds.cons_leaf leaf
    | opening opens => exact unwinds.cons_opening opens
    | @closing name outer => exact unwinds.cons_closing name

/-- The text is read alone to its end, and no element is open then. -/
def StandsAlone (text : List Char) : Prop :=
  (ofText text).exhaust.fault = none ∧ (ofText text).exhaust.last.depth = 0

/-- The text begins with content that stands alone, and goes on with a closing tag of the name. -/
structure ContentBefore (name content text : List Char) : Prop where
  alone : StandsAlone content
  closed : ∃ gap, isBlank gap = true ∧ content ++ ('<' :: '/' :: name ++ gap ++ ['>']) <+: text

theorem standsAlone_of_reads (reads : Reads (ofText text) lexemes r') (ended : r'.rest = [])
    (closed : r'.opened = []) : StandsAlone text := by
  obtain ⟨fault, last, -⟩ := exhaust_of_reads reads ended
  rw [StandsAlone, last, depth, closed]
  exact ⟨fault, rfl⟩

/-- A text that stands alone is content. -/
theorem StandsAlone.exists_content (alone : StandsAlone text) :
    ∃ lexemes r', Reads (ofText text) lexemes r' ∧ r'.rest = [] ∧ r'.opened = [] ∧
      Content lexemes := by
  obtain ⟨lexemes, reads, ended⟩ := reads_of_exhaust alone.1
  have closed : (ofText text).exhaust.last.opened = [] := List.length_eq_zero_iff.1 alone.2
  exact ⟨lexemes, _, reads, ended, closed, unwinds_of_reads reads closed⟩

theorem endsBefore_of_beginsMarkup {token : Token} {more : List Char} (begins : BeginsMarkup more) :
    token.EndsBefore more := by
  cases token with
  | text content => exact begins
  | _ => trivial

/-- Content in front of the closing tag of the innermost element is read inside as it is read
alone. -/
theorem ContentBefore.reads {outer : List (List Char)} (named : isName name = true)
    (opened : r.opened = name :: outer) (before : ContentBefore name content r.rest) :
    ∃ inner closing r', Content inner ∧ Reads r (inner ++ [⟨.closing name, closing⟩]) r' ∧
      content = spell inner := by
  obtain ⟨inner, alone, reads, ended, closed, inside⟩ := before.alone.exists_content
  obtain ⟨gap, blank, after, whole⟩ := before.closed
  let closing := '<' :: '/' :: name ++ gap ++ ['>']
  have within : Within (closing ++ after) (name :: outer) (ofText content) r :=
    ⟨by rw [← whole, List.append_assoc]; rfl, opened⟩
  have begins : BeginsMarkup (closing ++ after) := stopsAt_cons.2 (by decide)
  obtain ⟨r₁, reads', within'⟩ := within.reads reads fun l _ => by
    rw [ended, List.nil_append]
    exact endsBefore_of_beginsMarkup begins
  have here : At (closing ++ after) (name :: outer) r₁ :=
    ⟨by rw [within'.rest, ended]; rfl, by rw [within'.opened, closed]; rfl⟩
  obtain ⟨r₂, step, -⟩ := nextScanned_closing (.closing named blank) here
  refine ⟨inner, closing, r₂, inside, reads'.append (.single step), ?_⟩
  have spelled := reads.rest_eq
  rwa [ended, List.append_nil] at spelled

theorem contentBefore_of_reads {inner : List Lexeme} {closing : List Char} (inside : Content inner)
    (reads : Reads r (inner ++ [⟨.closing name, closing⟩]) r') :
    ContentBefore name (spell inner) r.rest := by
  obtain ⟨r₁, within, -⟩ := reads_concat_iff.1 reads
  obtain ⟨last, alone, ended, closed⟩ := within.alone inside
  have form := reads.form_of_mem (List.mem_append_right inner List.mem_cons_self)
  have whole := reads.rest_eq
  cases form with
  | @closing name gap named blank =>
    refine ⟨standsAlone_of_reads alone ended closed, gap, blank, r'.rest, ?_⟩
    simp [whole]

/-! ### The call for the content of an element -/

/-- The reader has read the content of the element that was the innermost one, and stands just behind
its closing tag. -/
structure Leaves (name content : List Char) (inside outside : Reader) : Prop where
  position : ∃ gap, isBlank gap = true ∧
    inside.rest = content ++ ('<' :: '/' :: name ++ gap ++ ['>']) ++ outside.rest ∧
    outside.tokenStart = inside.offset + Utf8.size content ∧
    outside.offset = outside.tokenStart + Utf8.size ('<' :: '/' :: name ++ gap ++ ['>'])
  opened : inside.opened = name :: outside.opened
  /-- The tokens read are those of the content alone, and the closing tag. -/
  tokens : calls ((ofText content).exhaust.taken.length + 1) inside =
    ((ofText content).exhaust.taken.map (fun t => .ok (some t.token)) ++
      [.ok (some (.closing name))], outside)

theorem leaves_of_reads {inner : List Lexeme} {closing : List Char} (inside : Content inner)
    (reads : Reads r (inner ++ [⟨.closing name, closing⟩]) r') :
    Leaves name (spell inner) r r' := by
  obtain ⟨r₁, within, step⟩ := reads_concat_iff.1 reads
  obtain ⟨last, alone, ended, -⟩ := within.alone inside
  obtain ⟨-, -, taken⟩ := exhaust_of_reads alone ended
  obtain ⟨-, -, -, stop, start⟩ := nextScanned_eq_some step
  have form := reads.form_of_mem (List.mem_append_right inner List.mem_cons_self)
  have whole := reads.rest_eq
  constructor
  · cases form with
    | @closing name gap named blank =>
      refine ⟨gap, blank, ?_, ?_, ?_⟩
      · rw [whole, spell_append]
        simp
      · rw [start, within.offset_eq]
      · rw [stop, start]
        rfl
  · rw [← (moves_of_step step).of_closing, opened_of_content inside within]
  · have length := congrArg List.length taken
    have results := congrArg
      (List.map fun token => (Except.ok (some token) : Except Error (Option Token))) taken
    simp only [List.length_map, List.map_map, Function.comp_def] at length results
    rw [length, results]
    simpa using calls_of_reads reads

/-- An element that a call has come to is the innermost one then. -/
theorem opened_of_returned (opens : tag.selfClosing = false)
    (found : next r = .ok (some (.opening tag)) r₁ ∨ nextChild r = .ok (some tag) r₁) :
    isName tag.name = true ∧ r₁.opened = tag.name :: r.opened := by
  have reads : ∃ gap text, Misc gap ∧ Reads r (gap ++ [⟨.opening tag, text⟩]) r₁ := by
    rcases found with found | found
    · obtain ⟨scanned, step, kind⟩ := next_eq_some_iff_nextScanned.1 found
      exact ⟨[], scanned.lexeme, allOf_nil _, kind ▸ .single step⟩
    · exact nextChild_eq_some_iff.1 found
  obtain ⟨gap, text, misc, reads⟩ := reads
  obtain ⟨r₂, before, step⟩ := reads_concat_iff.1 reads
  constructor
  · cases reads.form_of_mem (List.mem_append_right gap List.mem_cons_self) with
    | opening named => exact named
  · rw [(moves_of_step step).of_opening opens, opened_of_content (content_of_misc misc) before]

/-- The call for the content of an element succeeds with exactly the text that stands alone and has a
closing tag of the element behind it. There is at most one such text, and the call leaves the reader
behind the closing tag, with the elements around as they were. -/
theorem elementContent_isolated (opens : tag.selfClosing = false)
    (found : next r = .ok (some (.opening tag)) r₁ ∨ nextChild r = .ok (some tag) r₁) :
    (∀ content, (∃ r₂, elementContent tag r₁ = .ok content r₂) ↔
      ContentBefore tag.name content r₁.rest) ∧
      (∀ content content', ContentBefore tag.name content r₁.rest →
        ContentBefore tag.name content' r₁.rest → content = content') ∧
      ∀ content r₂, elementContent tag r₁ = .ok content r₂ →
        Leaves tag.name content r₁ r₂ ∧ r₂.opened = r.opened ∧ r₂.depth = r₁.depth - 1 := by
  obtain ⟨named, opened⟩ := opened_of_returned opens found
  have run : ∀ content r₂, elementContent tag r₁ = .ok content r₂ ↔
      ∃ inner closing, Content inner ∧ Reads r₁ (inner ++ [⟨.closing tag.name, closing⟩]) r₂ ∧
        content = spell inner := by
    intro content r₂
    rw [elementContent_of_opened opens opened, contentDownTo_eq_ok_iff opened]
  have returns : ∀ content, (∃ r₂, elementContent tag r₁ = .ok content r₂) ↔
      ContentBefore tag.name content r₁.rest := by
    intro content
    constructor
    · rintro ⟨r₂, read⟩
      obtain ⟨inner, closing, inside, reads, rfl⟩ := (run _ _).1 read
      exact contentBefore_of_reads inside reads
    · intro before
      obtain ⟨inner, closing, r₂, inside, reads, same⟩ := before.reads named opened
      exact ⟨r₂, (run _ _).2 ⟨inner, closing, inside, reads, same⟩⟩
  refine ⟨returns, ?_, ?_⟩
  · intro content content' before before'
    obtain ⟨r₂, read⟩ := (returns content).2 before
    obtain ⟨r₂', read'⟩ := (returns content').2 before'
    rw [read] at read'
    cases read'
    rfl
  · intro content r₂ read
    obtain ⟨inner, closing, inside, reads, rfl⟩ := (run _ _).1 read
    have leaves := leaves_of_reads inside reads
    have outside : r₂.opened = r.opened := by
      have same := leaves.opened
      rw [opened] at same
      exact (List.cons.inj same).2.symm
    refine ⟨leaves, outside, ?_⟩
    rw [depth, depth, leaves.opened]
    rfl

theorem standsAlone_sameName : StandsAlone "ü<a><!--</a>--></a>".toList := by
  have text : next (ofText "ü<a><!--</a>--></a>".toList) =
      .ok (some (.text ['ü'])) ⟨"<a><!--</a>--></a>".toList, 2, 0, []⟩ := by rfl
  have opening : next ⟨"<a><!--</a>--></a>".toList, 2, 0, []⟩ =
      .ok (some (.opening ⟨['a'], [], false⟩)) ⟨"<!--</a>--></a>".toList, 5, 2, [['a']]⟩ :=
    @next_bareTag ['a'] "<!--</a>--></a>".toList [] 2 0 rfl
  have comment : next ⟨"<!--</a>--></a>".toList, 5, 2, [['a']]⟩ =
      .ok (some .comment) ⟨"</a>".toList, 16, 5, [['a']]⟩ := rfl
  have closing : next ⟨"</a>".toList, 16, 5, [['a']]⟩ =
      .ok (some (.closing ['a'])) ⟨[], 20, 16, []⟩ := rfl
  have last : next ⟨[], 20, 16, []⟩ = .ok none ⟨[], 20, 16, []⟩ := rfl
  rw [StandsAlone, exhaust_eq text]
  dsimp only
  rw [exhaust_eq opening]
  dsimp only
  rw [exhaust_eq comment]
  dsimp only
  rw [exhaust_eq closing]
  dsimp only
  rw [exhaust_eq last]
  exact ⟨rfl, rfl⟩

theorem elementContent_isolated_sameName :
    ∃ r r₁ r₂, Visits "<r><a>ü<a><!--</a>--></a></a\n></r>".toList r ∧
      next r = .ok (some (.opening ⟨['a'], [], false⟩)) r₁ ∧ r.opened = [['r']] ∧
      elementContent ⟨['a'], [], false⟩ r₁ = .ok "ü<a><!--</a>--></a>".toList r₂ ∧
      Leaves ['a'] "ü<a><!--</a>--></a>".toList r₁ r₂ ∧ r₂.opened = [['r']] := by
  have whole : "<r><a>ü<a><!--</a>--></a></a\n></r>".toList =
      '<' :: ['r'] ++ '>' :: ('<' :: ['a'] ++ '>' :: "ü<a><!--</a>--></a></a\n></r>".toList) := by
    decide +kernel
  have visits := Visits.start.returned
    (@next_bareTag ['r'] ('<' :: ['a'] ++ '>' :: "ü<a><!--</a>--></a></a\n></r>".toList) [] 0 0 rfl)
  have step := @next_bareTag ['a'] "ü<a><!--</a>--></a></a\n></r>".toList [['r']]
    (0 + Utf8.size ('<' :: ['r'] ++ ['>'])) 0 rfl
  obtain ⟨returns, -, leaves⟩ := elementContent_isolated rfl (.inl step)
  obtain ⟨r₂, read⟩ := (returns "ü<a><!--</a>--></a>".toList).2
    ⟨standsAlone_sameName, ['\n'], by decide, by decide +kernel⟩
  obtain ⟨left, around, -⟩ := leaves _ r₂ read
  rw [whole]
  exact ⟨_, _, r₂, visits, step, rfl, read, left, around⟩

end SectionStore.Markup.Reader
