import SectionStore.Proofs.Envelope.RoundTrip
import SectionStore.Proofs.Markup.Elements

/-!
# The grammar of documents

`Document envelope lexemes` says which sequences of tokens are a document of `envelope`: a header
(`Header`), and the sections with what may follow them (`Body`). It is made of the grammar of
elements and knows neither the parser's phases nor its open elements.

Each operation of the parser succeeds exactly where the tokens go on in the form that it is there
for (`seekRoot_eq_ok_iff` to `sections_eq_iff`). The main statement, `decode_eq_ok_iff_document`,
puts them together: a document is accepted if and only if it is text, all of it can be read token by
token, and the tokens are a document; and then the envelope is the one that they spell.
-/

namespace SectionStore.Envelope

open Markup

/-! ### Documents -/

/-- May the token stand behind the root element? -/
def isTrailing : Token → Bool
  | .comment => true
  | .text content => isBlank content
  | _ => false

/-- What may stand behind the root element: comments and blank text. -/
abbrev Trailing (lexemes : List Lexeme) : Prop :=
  AllOf isTrailing lexemes

/-- The tag that holds the version: the first value of `name` is the name of the version, and the
first value of `value` spells its number, with or without white space around. -/
structure Numbers (version : DataVersion) (tag : StartTag) : Prop where
  integer : tag.name = ['i', 'n', 't']
  named : tag.attribute? nameAttribute = some versionName
  number : ∃ raw, tag.attribute? valueAttribute = some raw ∧
    Integer.int64? (WhiteSpace.trim raw) = .ok version.number

/-- The integrity block, in the version that has one. -/
def Block (version : DataVersion) (lexemes : List Lexeme) : Prop :=
  if version.hasIntegrityBlock then
    ∃ tag content, tag.name = integrityName ∧ Child tag content lexemes
  else lexemes = []

theorem Block.content {version : DataVersion} {lexemes : List Lexeme}
    (block : Block version lexemes) : Content lexemes := by
  unfold Block at block
  split at block
  · obtain ⟨tag, content, -, child⟩ := block
    exact child.content
  · rw [block]
    exact .nil

/-- A document up to its first section. -/
inductive Header : DataVersion → List Lexeme → Prop where
  | mk {version : DataVersion} {root tag : StartTag} {opening content : List Char}
      {gap number block : List Lexeme} (misc : Misc gap) (named : root.name = rootName)
      (opens : root.selfClosing = false) (numbers : Numbers version tag)
      (child : Child tag content number) (integrity : Block version block) :
      Header version (gap ++ ⟨.opening root, opening⟩ :: (number ++ block))

/-- The section that an element stands for. -/
def sectionOf (tag : StartTag) (content : List Char) : Section :=
  ⟨String.ofList tag.name, Utf8.encode content⟩

/-- The sections of a document, the end of the root element and what may follow it. -/
inductive Body : List Section → List Lexeme → Prop where
  | done {closing : List Char} {gap trailing : List Lexeme} (misc : Misc gap)
      (rest : Trailing trailing) : Body [] (gap ++ ⟨.closing rootName, closing⟩ :: trailing)
  | another {tag : StartTag} {content : List Char} {sections : List Section}
      {lexemes others : List Lexeme} (child : Child tag content lexemes)
      (rest : Body sections others) : Body (sectionOf tag content :: sections) (lexemes ++ others)

/-- The tokens of a whole document. -/
inductive Document : Envelope → List Lexeme → Prop where
  | mk {version : DataVersion} {sections : List Section} {head rest : List Lexeme}
      (header : Header version head) (body : Body sections rest) :
      Document ⟨version, sections⟩ (head ++ rest)

/-! ### The operations of the parser -/

namespace Parser

variable {p p' : Parser} {version : DataVersion}

theorem reading_eq_ok_iff {α : Type} {wrap : Markup.Error → Error} {m : Read α} {a : α} :
    reading wrap m p = .ok a p' ↔ ∃ r, m p.reader = .ok a r ∧ p' = p.behind r := by
  constructor
  · intro run
    unfold reading at run
    split at run
    · rename_i r step
      cases run
      exact ⟨r, step, rfl⟩
    · cases run
  · rintro ⟨r, step, rfl⟩
    exact reading_of_ok wrap step

/-! The root tag -/

theorem seekRoot_of_step {scanned : Scanned Token} {r : Reader}
    (step : p.reader.nextScanned = .ok (some scanned) r) :
    seekRoot p = if scanned.value.isMisc then seekRoot (p.behind r) else match scanned.value with
      | .opening tag =>
        if tag.name = rootName ∧ tag.selfClosing = false then .ok () (p.behind r)
        else .error (.missingStart (.opening tag.name)) (p.behind r)
      | .closing name => .error (.missingStart (.closing name)) (p.behind r)
      | _ => .error (.missingStart (.characterData r.tokenStart)) (p.behind r) := by
  rw [seekRoot]
  split
  · rename_i fault
    rw [step] at fault
    cases fault
  · rename_i fault
    rw [step] at fault
    cases fault
  · rename_i found
    rw [step] at found
    cases found
    cases scanned.value <;> rfl

/-- The search for the root ends with its tag, or goes on behind what may stand before it. -/
theorem seekRoot_cases (run : seekRoot p = .ok () p') :
    (∃ root opening r, root.name = rootName ∧ root.selfClosing = false ∧
        p.reader.Reads [⟨.opening root, opening⟩] r ∧ p' = p.behind r) ∨
      ∃ scanned r, p.reader.nextScanned = .ok (some scanned) r ∧ scanned.value.isMisc = true ∧
        seekRoot (p.behind r) = .ok () p' := by
  have unfolded := run
  rw [seekRoot] at unfolded
  split at unfolded
  · cases unfolded
  · cases unfolded
  rename_i scanned r step
  obtain ⟨token, text, rest⟩ := scanned
  rw [seekRoot_of_step step] at run
  split at run
  · rename_i misc
    exact .inr ⟨_, r, step, misc, run⟩
  · left
    split at run
    · rename_i tag kind
      split at run
      · rename_i root
        cases run
        cases kind
        exact ⟨tag, text, r, root.1, root.2, .single step, rfl⟩
      · cases run
    · cases run
    · cases run

theorem seekRoot_of_misc {gap : List Lexeme} {r : Reader} (misc : Misc gap)
    (reads : p.reader.Reads gap r) : seekRoot p = seekRoot (p.behind r) := by
  refine Reader.eq_of_allOf (f := fun r => seekRoot (p.behind r)) ?_ misc reads
  intro r r₁ scanned step first
  have step' : (p.behind r).reader.nextScanned = .ok (some scanned) r₁ := step
  simp only [seekRoot_of_step step', if_pos first]
  rfl

theorem seekRoot_eq_ok_iff : seekRoot p = .ok () p' ↔
    ∃ gap root opening r, Misc gap ∧ root.name = rootName ∧ root.selfClosing = false ∧
      p.reader.Reads (gap ++ [⟨.opening root, opening⟩]) r ∧ p' = p.behind r := by
  constructor
  · intro run
    obtain ⟨gap, r₁, misc, before, root, opening, r, named, opens, last, rfl⟩ :=
      Reader.exists_allOf_of_loop (fun r => seekRoot (p.behind r) = .ok () p') seekRoot_cases run
    exact ⟨gap, root, opening, r, misc, named, opens, before.append last, rfl⟩
  · rintro ⟨gap, root, opening, r, misc, named, opens, reads, rfl⟩
    obtain ⟨r₁, before, step⟩ := Reader.reads_concat_iff.1 reads
    have step' : (p.behind r₁).reader.nextScanned =
        .ok (some ⟨.opening root, opening, r.rest⟩) r := step
    simp only [seekRoot_of_misc misc before, seekRoot_of_step step', Token.isMisc,
      Bool.false_eq_true, if_false, named, opens, and_self, if_true]
    rfl

/-! The version and the integrity block -/

theorem skipElement_eq_ok_iff {tag : StartTag} {r r' : Reader} :
    Reader.skipElement tag r = .ok () r' ↔
      ∃ content, Reader.elementContent tag r = .ok content r' := by
  rw [Reader.skipElement, run_bind_eq_ok_iff]
  constructor
  · rintro ⟨content, r₁, read, rest⟩
    cases rest
    exact ⟨content, read⟩
  · rintro ⟨content, read⟩
    exact ⟨content, r', read, rfl⟩

theorem numbers_iff {tag : StartTag} : Numbers version tag ↔
    isVersionTag tag = true ∧
      ∃ raw, tag.int? = .ok raw ∧ DataVersion.ofInt? raw = some version := by
  constructor
  · rintro ⟨integer, named, raw, value, number⟩
    refine ⟨by simp [isVersionTag, integer, named], version.number, ?_, version.ofInt?_number⟩
    rw [StartTag.int?, value]
    simp only [number]
    rfl
  · rintro ⟨isVersion, number, held, supported⟩
    simp only [isVersionTag, Bool.and_eq_true, decide_eq_true_eq] at isVersion
    obtain rfl := DataVersion.eq_of_ofInt? supported
    unfold StartTag.int? at held
    split at held
    · cases held
    · rename_i raw value
      cases read : Integer.int64? (WhiteSpace.trim raw) with
      | error fault =>
        rw [read] at held
        cases held
      | ok n =>
        rw [read] at held
        cases held
        exact ⟨isVersion.1, isVersion.2, raw, value, read⟩

theorem readVersion_eq_ok_iff : readVersion p = .ok version p' ↔
    ∃ tag content lexemes r, Numbers version tag ∧ Child tag content lexemes ∧
      p.reader.Reads lexemes r ∧ p' = p.behind r := by
  constructor
  · intro run
    obtain ⟨child, p₁, first, run⟩ := run_bind_eq_ok_iff.1 run
    obtain ⟨r₁, found, rfl⟩ := reading_eq_ok_iff.1 first
    cases child with
    | none => cases run
    | some tag =>
      simp only at run
      split at run
      · rename_i isVersion
        cases held : tag.int? with
        | error fault =>
          rw [held] at run
          cases run
        | ok number =>
          rw [held] at run
          obtain ⟨_, p₂, second, run⟩ := run_bind_eq_ok_iff.1 run
          obtain ⟨r, skipped, rfl⟩ := reading_eq_ok_iff.1 second
          obtain ⟨content, read⟩ := skipElement_eq_ok_iff.1 skipped
          obtain ⟨lexemes, child, reads⟩ := Reader.child_eq_ok_iff.1 ⟨r₁, found, read⟩
          cases supported : DataVersion.ofInt? number with
          | none =>
            rw [supported] at run
            cases run
          | some version' =>
            rw [supported] at run
            cases run
            exact ⟨tag, content, lexemes, r, numbers_iff.2 ⟨isVersion, number, held, supported⟩,
              child, reads, rfl⟩
      · cases run
  · rintro ⟨tag, content, lexemes, r, numbers, child, reads, rfl⟩
    obtain ⟨isVersion, number, held, supported⟩ := numbers_iff.1 numbers
    obtain ⟨r₁, found, read⟩ := Reader.child_eq_ok_iff.2 ⟨lexemes, child, reads⟩
    have skipped := reading_of_ok .markup (p := p.behind r₁) (skipElement_eq_ok_iff.2 ⟨content, read⟩)
    simp only [readVersion, run_bind, reading_of_ok _ found, isVersion, if_true, held, skipped,
      supported]
    rfl

theorem skipIntegrity_eq_ok_iff : skipIntegrity p = .ok () p' ↔
    ∃ tag content lexemes r, tag.name = integrityName ∧ Child tag content lexemes ∧
      p.reader.Reads lexemes r ∧ p' = p.behind r := by
  constructor
  · intro run
    obtain ⟨child, p₁, first, run⟩ := run_bind_eq_ok_iff.1 run
    obtain ⟨r₁, found, rfl⟩ := reading_eq_ok_iff.1 first
    cases child with
    | none => cases run
    | some tag =>
      simp only at run
      split at run
      · rename_i named
        obtain ⟨r, skipped, rfl⟩ := reading_eq_ok_iff.1 run
        obtain ⟨content, read⟩ := skipElement_eq_ok_iff.1 skipped
        obtain ⟨lexemes, child, reads⟩ := Reader.child_eq_ok_iff.1 ⟨r₁, found, read⟩
        exact ⟨tag, content, lexemes, r, named, child, reads, rfl⟩
      · cases run
  · rintro ⟨tag, content, lexemes, r, named, child, reads, rfl⟩
    obtain ⟨r₁, found, read⟩ := Reader.child_eq_ok_iff.2 ⟨lexemes, child, reads⟩
    have skipped := reading_of_ok .markup (p := p.behind r₁) (skipElement_eq_ok_iff.2 ⟨content, read⟩)
    simp only [skipIntegrity, run_bind, reading_of_ok _ found, named, if_true, skipped]
    rfl

/-- The integrity block is read over in the version that has one. -/
theorem block_eq_ok_iff :
    (if version.hasIntegrityBlock then skipIntegrity p = .ok () p' else p' = p) ↔
      ∃ lexemes r, Block version lexemes ∧ p.reader.Reads lexemes r ∧ p' = p.behind r := by
  cases has : version.hasIntegrityBlock with
  | false =>
    simp only [Block, has, Bool.false_eq_true, if_false]
    constructor
    · rintro rfl
      exact ⟨[], p'.reader, rfl, .nil _, rfl⟩
    · rintro ⟨lexemes, r, rfl, reads, rfl⟩
      rw [Reader.reads_nil_iff.1 reads]
      rfl
  | true =>
    simp only [Block, has, if_true, skipIntegrity_eq_ok_iff]
    constructor
    · rintro ⟨tag, content, lexemes, r, named, child, reads, rfl⟩
      exact ⟨lexemes, r, ⟨tag, content, named, child⟩, reads, rfl⟩
    · rintro ⟨lexemes, r, ⟨tag, content, named, child⟩, reads, rfl⟩
      exact ⟨tag, content, lexemes, r, named, child, reads, rfl⟩

/-- The header is read where the tokens begin with one. -/
theorem readHeader_eq_ok_iff (unread : p.version = none) : readHeader p = .ok version p' ↔
    ∃ lexemes r, Header version lexemes ∧ p.reader.Reads lexemes r ∧
      p' = ⟨r, .sections, some version⟩ := by
  constructor
  · intro run
    obtain ⟨_, _, got, run⟩ := run_bind_eq_ok_iff.1 run
    cases got
    simp only [unread] at run
    obtain ⟨_, p₁, first, run⟩ := run_bind_eq_ok_iff.1 run
    obtain ⟨gap, root, opening, r₁, misc, named, opens, before, rfl⟩ := seekRoot_eq_ok_iff.1 first
    obtain ⟨_, _, entered, run⟩ := run_bind_eq_ok_iff.1 run
    cases entered
    obtain ⟨supported, p₂, second, run⟩ := run_bind_eq_ok_iff.1 run
    obtain ⟨tag, content, number, r₂, numbers, child, after, rfl⟩ := readVersion_eq_ok_iff.1 second
    have past : ∃ p₃, (if supported.hasIntegrityBlock then
        skipIntegrity ⟨r₂, .header, p.version⟩ = .ok () p₃ else p₃ = ⟨r₂, .header, p.version⟩) ∧
          version = supported ∧ p' = ⟨p₃.reader, .sections, some supported⟩ := by
      cases has : supported.hasIntegrityBlock with
      | false =>
        simp only [has, Bool.false_eq_true, if_false] at run ⊢
        cases run
        exact ⟨_, rfl, rfl, rfl⟩
      | true =>
        simp only [has, if_true] at run ⊢
        obtain ⟨_, p₃, third, run⟩ := run_bind_eq_ok_iff.1 run
        cases run
        exact ⟨p₃, third, rfl, rfl⟩
    obtain ⟨p₃, block, rfl, rfl⟩ := past
    obtain ⟨block, r₃, integrity, last, rfl⟩ := block_eq_ok_iff.1 block
    have reads := before.append (after.append last)
    rw [List.append_assoc, List.singleton_append] at reads
    exact ⟨_, r₃, .mk misc named opens numbers child integrity, reads, rfl⟩
  · rintro ⟨_, r, ⟨misc, named, opens, numbers, child, integrity⟩, reads, rfl⟩
    rw [← List.singleton_append, ← List.append_assoc] at reads
    obtain ⟨r₁, before, reads⟩ := Reader.reads_append_iff.1 reads
    obtain ⟨r₂, number, block⟩ := Reader.reads_append_iff.1 reads
    have root := seekRoot_eq_ok_iff.2 ⟨_, _, _, r₁, misc, named, opens, before, rfl⟩
    have version := readVersion_eq_ok_iff (p := ⟨r₁, .header, p.version⟩).2
      ⟨_, _, _, r₂, numbers, child, number, rfl⟩
    have past := block_eq_ok_iff (p := ⟨r₂, .header, p.version⟩).2 ⟨_, r, integrity, block, rfl⟩
    exact readHeader_of_parts unread root version past

/-! The sections -/

theorem nextInBody_eq_some_iff {s : Section} : nextInBody p = .ok (some s) p' ↔
    ∃ tag content lexemes r, Child tag content lexemes ∧ s = sectionOf tag content ∧
      p.reader.Reads lexemes r ∧ p' = p.behind r := by
  constructor
  · intro run
    obtain ⟨child, p₁, first, run⟩ := run_bind_eq_ok_iff.1 run
    obtain ⟨r₁, found, rfl⟩ := reading_eq_ok_iff.1 first
    cases child with
    | none =>
      obtain ⟨_, p₂, -, run⟩ := run_bind_eq_ok_iff.1 run
      cases run
    | some tag =>
      obtain ⟨content, p₂, second, run⟩ := run_bind_eq_ok_iff.1 run
      obtain ⟨r, read, rfl⟩ := reading_eq_ok_iff.1 second
      cases run
      obtain ⟨lexemes, child, reads⟩ := Reader.child_eq_ok_iff.1 ⟨r₁, found, read⟩
      exact ⟨tag, content, lexemes, r, child, rfl, reads, rfl⟩
  · rintro ⟨tag, content, lexemes, r, child, rfl, reads, rfl⟩
    obtain ⟨r₁, found, read⟩ := Reader.child_eq_ok_iff.2 ⟨lexemes, child, reads⟩
    have content := reading_of_ok endMissing (p := p.behind r₁) read
    simp only [nextInBody, run_bind, reading_of_ok _ found, content]
    rfl

theorem finish_of_step {scanned : Scanned Token} {r : Reader}
    (step : p.reader.nextScanned = .ok (some scanned) r) :
    finish p = if isTrailing scanned.value then finish (p.behind r)
      else .error (.trailingContent p.reader.offset) (p.behind r) := by
  rw [finish]
  split
  · rename_i fault
    rw [step] at fault
    cases fault
  · rename_i fault
    rw [step] at fault
    cases fault
  · rename_i found
    rw [step] at found
    cases found
    cases scanned.value <;> rfl

/-- Behind the root element the text ends, or the parser goes on behind what may stand there. -/
theorem finish_cases (run : finish p = .ok () p') :
    (p.reader.rest = [] ∧ p' = ⟨p.reader, .done, p.version⟩) ∨
      ∃ scanned r, p.reader.nextScanned = .ok (some scanned) r ∧
        isTrailing scanned.value = true ∧ finish (p.behind r) = .ok () p' := by
  have unfolded := run
  rw [finish] at unfolded
  split at unfolded
  · cases unfolded
  · rename_i r step
    obtain ⟨ended, rfl⟩ := Reader.nextScanned_eq_none_iff.1 step
    cases unfolded
    exact .inl ⟨ended, rfl⟩
  · rename_i scanned r step
    rw [finish_of_step step] at run
    split at run
    · rename_i first
      exact .inr ⟨scanned, r, step, first, run⟩
    · cases run

theorem finish_of_ended (ended : p.reader.rest = []) :
    finish p = .ok () ⟨p.reader, .done, p.version⟩ := by
  have step := Reader.nextScanned_eq_none_iff.2 ⟨ended, rfl⟩
  rw [finish]
  split
  · rename_i fault
    rw [step] at fault
    cases fault
  · rename_i found
    rw [step] at found
    cases found
    rfl
  · rename_i fault
    rw [step] at fault
    cases fault

/-- Behind the root element the parser accepts what may stand there, up to the end of the text. -/
theorem finish_eq_ok_iff : finish p = .ok () p' ↔
    ∃ trailing r, Trailing trailing ∧ p.reader.Reads trailing r ∧ r.rest = [] ∧
      p' = ⟨r, .done, p.version⟩ := by
  constructor
  · intro run
    obtain ⟨trailing, r, all, reads, ended, rfl⟩ :=
      Reader.exists_allOf_of_loop (fun r => finish (p.behind r) = .ok () p') finish_cases run
    exact ⟨trailing, r, all, reads, ended, rfl⟩
  · rintro ⟨trailing, r, all, reads, ended, rfl⟩
    have skip : finish (p.behind p.reader) = finish (p.behind r) := by
      refine Reader.eq_of_allOf (f := fun r => finish (p.behind r)) ?_ all reads
      intro r r₁ scanned step first
      have step' : (p.behind r).reader.nextScanned = .ok (some scanned) r₁ := step
      simp only [finish_of_step step', if_pos first]
      rfl
    exact skip.trans (finish_of_ended ended)

/-- There is no further section where no child is left and nothing but what may follow the root
element. -/
theorem nextInBody_ended_iff : nextInBody p = .ok none p' ↔
    ∃ r₁ trailing r, p.reader.nextChild = .ok none r₁ ∧ Trailing trailing ∧ r₁.Reads trailing r ∧
      r.rest = [] ∧ p' = ⟨r, .done, p.version⟩ := by
  constructor
  · intro run
    obtain ⟨child, p₁, first, run⟩ := run_bind_eq_ok_iff.1 run
    obtain ⟨r₁, found, rfl⟩ := reading_eq_ok_iff.1 first
    cases child with
    | none =>
      obtain ⟨_, p₂, last, run⟩ := run_bind_eq_ok_iff.1 run
      cases run
      obtain ⟨trailing, r, all, after, ended, rfl⟩ := finish_eq_ok_iff.1 last
      exact ⟨r₁, trailing, r, found, all, after, ended, rfl⟩
    | some tag =>
      obtain ⟨content, p₂, -, run⟩ := run_bind_eq_ok_iff.1 run
      cases run
  · rintro ⟨r₁, trailing, r, found, all, after, ended, rfl⟩
    have last := (finish_eq_ok_iff (p := p.behind r₁)).2 ⟨trailing, r, all, after, ended, rfl⟩
    simp only [nextInBody, run_bind, reading_of_ok _ found, last]
    rfl

/-- Behind the last section stand the end of the root element and what may follow it. -/
theorem nextInBody_eq_none_iff (opened : p.reader.opened = [rootName]) :
    nextInBody p = .ok none p' ↔
      ∃ lexemes r, Body [] lexemes ∧ p.reader.Reads lexemes r ∧ r.rest = [] ∧
        p' = ⟨r, .done, p.version⟩ := by
  rw [nextInBody_ended_iff]
  constructor
  · rintro ⟨r₁, trailing, r, found, all, after, ended, rfl⟩
    obtain ⟨gap, closing, misc, before⟩ := (Reader.nextChild_eq_none_iff opened).1 found
    have reads := before.append after
    rw [List.append_assoc, List.singleton_append] at reads
    exact ⟨_, r, .done misc all, reads, ended, rfl⟩
  · rintro ⟨_, r, ⟨misc, all⟩, reads, ended, rfl⟩
    rw [← List.singleton_append, ← List.append_assoc] at reads
    obtain ⟨r₁, before, after⟩ := Reader.reads_append_iff.1 reads
    exact ⟨r₁, _, r, (Reader.nextChild_eq_none_iff opened).2 ⟨_, _, misc, before⟩, all, after, ended,
      rfl⟩

theorem sections_eq_nil_iff : p.sections = ([], none) ↔ ∃ p', nextSection p = .ok none p' := by
  constructor
  · intro run
    rw [sections] at run
    split at run
    · cases run
    · rename_i p' last
      exact ⟨p', last⟩
    · cases run
  · rintro ⟨p', last⟩
    exact sections_of_none last

theorem sections_eq_cons_iff {s : Section} {ss : List Section} {fault : Option Error} :
    p.sections = (s :: ss, fault) ↔
      ∃ p', nextSection p = .ok (some s) p' ∧ p'.sections = (ss, fault) := by
  constructor
  · intro run
    rw [sections] at run
    split at run
    · cases run
    · cases run
    · rename_i p' first
      cases rest : p'.sections with
      | mk others e =>
        rw [rest] at run
        cases run
        exact ⟨p', first, rest⟩
  · rintro ⟨p', first, rest⟩
    rw [sections_of_some first, rest]

/-- The sections are read to the end where the tokens that are left are the body of a document. -/
theorem sections_eq_iff {ss : List Section} (among : p.phase = .sections)
    (opened : p.reader.opened = [rootName]) : p.sections = (ss, none) ↔
      ∃ lexemes r, Body ss lexemes ∧ p.reader.Reads lexemes r ∧ r.rest = [] := by
  induction ss generalizing p with
  | nil =>
    rw [sections_eq_nil_iff, nextSection_of_sections among]
    constructor
    · rintro ⟨p', last⟩
      obtain ⟨lexemes, r, body, reads, ended, -⟩ := (nextInBody_eq_none_iff opened).1 last
      exact ⟨lexemes, r, body, reads, ended⟩
    · rintro ⟨lexemes, r, body, reads, ended⟩
      exact ⟨_, (nextInBody_eq_none_iff opened).2 ⟨lexemes, r, body, reads, ended, rfl⟩⟩
  | cons s ss ih =>
    rw [sections_eq_cons_iff, nextSection_of_sections among]
    constructor
    · rintro ⟨p', first, rest⟩
      obtain ⟨tag, content, lexemes, r₁, child, rfl, reads, rfl⟩ := nextInBody_eq_some_iff.1 first
      have same := (Reader.opened_of_content child.content reads).trans opened
      obtain ⟨others, r, body, after, ended⟩ := (ih (p := p.behind r₁) among same).1 rest
      exact ⟨lexemes ++ others, r, .another child body, reads.append after, ended⟩
    · rintro ⟨_, r, body, reads, ended⟩
      cases body with
      | another child body =>
        obtain ⟨r₁, reads, after⟩ := Reader.reads_append_iff.1 reads
        have same := (Reader.opened_of_content child.content reads).trans opened
        exact ⟨p.behind r₁, nextInBody_eq_some_iff.2 ⟨_, _, _, r₁, child, rfl, reads, rfl⟩,
          (ih (p := p.behind r₁) among same).2 ⟨_, r, body, after, ended⟩⟩

/-- Behind the header the root element alone is open. -/
theorem opened_of_header {lexemes : List Lexeme} {r r' : Reader} (header : Header version lexemes)
    (reads : r.Reads lexemes r') : r'.opened = rootName :: r.opened := by
  obtain ⟨misc, named, opens, numbers, child, integrity⟩ := header
  obtain ⟨r₁, gap, reads⟩ := Reader.reads_append_iff.1 reads
  obtain ⟨r₂, step, reads⟩ := Reader.reads_cons_iff.1 reads
  obtain ⟨r₃, number, block⟩ := Reader.reads_append_iff.1 reads
  rw [Reader.opened_of_content integrity.content block,
    Reader.opened_of_content child.content number, (Reader.moves_of_step step).of_opening opens,
    named, Reader.opened_of_content (content_of_misc misc) gap]

end Parser

/-! ### Whole documents -/

/-- A document is decoded in two steps, the header first. -/
theorem decode_eq_ok {octets : ByteArray} {envelope : Envelope} :
    decode octets = .ok envelope ↔ ∃ text p, Utf8.decode octets = .ok text ∧
      Parser.readHeader (.ofText text) = .ok envelope.version p ∧
      p.sections = (envelope.sections, none) := by
  cases read : Utf8.decode octets with
  | error fault =>
    have refused : Parser.ofBytes octets = .error (.notText fault) := by
      rw [Parser.ofBytes, read]
      rfl
    simp [decode, refused, Bind.bind, Except.bind]
  | ok text =>
    have parsed : Parser.ofBytes octets = .ok (.ofText text) := by
      rw [Parser.ofBytes, read]
      rfl
    simp only [decode, parsed, Bind.bind, Except.bind]
    constructor
    · intro run
      cases header : Parser.readHeader (.ofText text) with
      | error e p =>
        rw [header] at run
        cases run
      | ok version p =>
        rw [header] at run
        cases body : p.sections with
        | mk sections fault =>
          simp only [body] at run
          cases fault with
          | some e => cases run
          | none =>
            cases run
            exact ⟨text, p, rfl, header, body⟩
    · rintro ⟨text', p, same, header, body⟩
      cases same
      simp only [header, body]
      rfl

/-- What is decoded is text whose tokens are a document. -/
theorem document_of_decode {octets : ByteArray} {envelope : Envelope}
    (decoded : decode octets = .ok envelope) :
    ∃ lexemes r, Utf8.decode octets = .ok (spell lexemes) ∧
      (Reader.ofText (spell lexemes)).Reads lexemes r ∧ r.rest = [] ∧
      Document envelope lexemes := by
  obtain ⟨text, p, read, first, second⟩ := decode_eq_ok.1 decoded
  obtain ⟨head, r₁, header, before, rfl⟩ :=
    (Parser.readHeader_eq_ok_iff (p := .ofText text) rfl).1 first
  have opened : r₁.opened = [rootName] := Parser.opened_of_header header before
  obtain ⟨rest, r, body, after, ended⟩ := (Parser.sections_eq_iff rfl opened).1 second
  have reads := before.append after
  have same : text = spell (head ++ rest) := by
    have spelled := reads.rest_eq
    rwa [ended, List.append_nil] at spelled
  exact ⟨head ++ rest, r, same ▸ read, same ▸ reads, ended, .mk header body⟩

theorem decode_of_document {octets : ByteArray} {envelope : Envelope} {lexemes : List Lexeme}
    {r : Reader} (read : Utf8.decode octets = .ok (spell lexemes))
    (reads : (Reader.ofText (spell lexemes)).Reads lexemes r) (ended : r.rest = [])
    (document : Document envelope lexemes) : decode octets = .ok envelope := by
  obtain ⟨header, body⟩ := document
  obtain ⟨r₁, before, after⟩ := Reader.reads_append_iff.1 reads
  have opened : r₁.opened = [rootName] := Parser.opened_of_header header before
  have first := (Parser.readHeader_eq_ok_iff (p := .ofText _) rfl).2 ⟨_, r₁, header, before, rfl⟩
  exact decode_eq_ok.2 ⟨_, _, read, first,
    (Parser.sections_eq_iff rfl opened).2 ⟨_, r, body, after, ended⟩⟩

/-- Octets are accepted if and only if they are text, the text can be read token by token to its
end, and its tokens are a document; then the envelope has the version and the sections of it. -/
theorem decode_eq_ok_iff_document {octets : ByteArray} {envelope : Envelope} :
    decode octets = .ok envelope ↔ ∃ lexemes r, Utf8.decode octets = .ok (spell lexemes) ∧
      (Reader.ofText (spell lexemes)).Reads lexemes r ∧ r.nextScanned = .ok none r ∧
      Document envelope lexemes := by
  constructor
  · intro decoded
    obtain ⟨lexemes, r, read, reads, ended, document⟩ := document_of_decode decoded
    exact ⟨lexemes, r, read, reads, Reader.nextScanned_eq_none_iff.2 ⟨ended, rfl⟩, document⟩
  · rintro ⟨lexemes, r, read, reads, ended, document⟩
    exact decode_of_document read reads (Reader.nextScanned_eq_none_iff.1 ended).1 document

end SectionStore.Envelope
