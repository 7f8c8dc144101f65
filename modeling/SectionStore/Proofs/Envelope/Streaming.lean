import SectionStore.Proofs.Envelope.Grammar

/-!
# Calls of a parser in any order

A parser is called for the version and for the next section, in any order and as often as one
likes. `Outline` is what a document has to offer to such calls. Up to the first refusal the answers
are those of the outline (`Stands.untilRefused_answers`), and the outline is what decoding finds.

A parser does not remember that it has refused. `Parser.Finds` says, in the grammar of documents,
when the tokens in front of it are what a call looks for, and exactly then the call succeeds,
whatever came before (`Parser.keeps_iff`). So a document that was refused may go on with sections that
are none of its sections (`refused_document_goes_on`).
-/

namespace SectionStore.Envelope

open Markup

/-! ### Calls and answers -/

/-- A call of a parser. -/
inductive Call where
  | header
  | next
  deriving DecidableEq, Repr

/-- What a call returns. -/
inductive Answer where
  | version (version : DataVersion)
  | one (s : Section)
  | ended
  | refused (e : Error)
  deriving DecidableEq

def Answer.isRefused : Answer → Bool
  | .refused _ => true
  | _ => false

/-- The answers up to the first refusal. -/
def untilRefused : List Answer → List Answer
  | [] => []
  | a :: answers => if a.isRefused then [a] else a :: untilRefused answers

namespace Parser

/-- What a call returns, and the parser that it leaves. -/
def call (p : Parser) : Call → Answer × Parser
  | .header =>
    match readHeader p with
    | .ok version p' => (.version version, p')
    | .error e p' => (.refused e, p')
  | .next =>
    match nextSection p with
    | .ok (some s) p' => (.one s, p')
    | .ok none p' => (.ended, p')
    | .error e p' => (.refused e, p')

/-- What one call after the other returns. -/
def answers (p : Parser) : List Call → List Answer
  | [] => []
  | c :: calls => (p.call c).1 :: (p.call c).2.answers calls

/-- The parser that the calls leave. -/
def after (p : Parser) (calls : List Call) : Parser :=
  calls.foldl (fun q c => (q.call c).2) p

end Parser

/-! ### What a document has to offer -/

/-- The version of a document, its sections up to the end or up to the first fault, and that
fault. -/
structure Outline where
  header : Except Error DataVersion
  sections : List Section
  fault : Option Error

namespace Outline

/-- The outline of a document without faults. -/
def complete (envelope : Envelope) : Outline :=
  ⟨.ok envelope.version, envelope.sections, none⟩

/-- What follows the last section. -/
def ending (o : Outline) : Answer :=
  match o.fault with
  | none => .ended
  | some e => .refused e

/-- The answer to a call when the sections `left` have not been returned, and those that then have
not been. -/
def answer (o : Outline) (left : List Section) : Call → Answer × List Section
  | .header =>
    match o.header with
    | .ok version => (.version version, left)
    | .error e => (.refused e, left)
  | .next =>
    match left with
    | s :: others => (.one s, others)
    | [] => (o.ending, [])

def answersFrom (o : Outline) (left : List Section) : List Call → List Answer
  | [] => []
  | c :: calls => (o.answer left c).1 :: o.answersFrom (o.answer left c).2 calls

/-- The answers to calls from the beginning on. -/
def answers (o : Outline) (calls : List Call) : List Answer :=
  o.answersFrom o.sections calls

end Outline

/-- What a parser finds if the header is read first and then one section after the other. -/
def Parser.outline (p : Parser) : Outline :=
  match readHeader p with
  | .ok version p' => ⟨.ok version, p'.sections.1, p'.sections.2⟩
  | .error e _ => ⟨.error e, [], some e⟩

/-! ### Up to the first refusal -/

namespace Parser

theorem readHeader_of_known {p : Parser} {version : DataVersion}
    (known : p.version = some version) : readHeader p = .ok version p := by
  simp only [readHeader, run_bind, run_get, known]
  rfl

theorem nextSection_of_done {p : Parser} (done : p.phase = .done) :
    nextSection p = .ok none p := by
  simp only [nextSection, run_bind, run_get, done]
  rfl

/-- Before the sections the header is read first. -/
theorem nextSection_of_start {p : Parser} (early : p.phase = .start ∨ p.phase = .header) :
    nextSection p = match readHeader p with
      | .ok _ p' => nextInBody p'
      | .error e p' => .error e p' := by
  rcases early with phase | phase <;> simp only [nextSection, run_bind, run_get, phase] <;>
    cases readHeader p <;> rfl

theorem sections_of_error {p p' : Parser} {e : Error} (run : nextSection p = .error e p') :
    p.sections = ([], some e) := by
  rw [sections]
  split <;> simp_all

end Parser

/-- The parser stands where the sections `left` of the outline have not been returned. -/
inductive Stands (o : Outline) : List Section → Parser → Prop where
  | start {p : Parser} (unread : p.version = none) (phase : p.phase = .start)
      (same : o = p.outline) : Stands o o.sections p
  | among {p : Parser} {version : DataVersion} {left : List Section}
      (known : p.version = some version) (header : o.header = .ok version)
      (phase : p.phase = .sections) (rest : p.sections = (left, o.fault)) : Stands o left p
  | done {p : Parser} {version : DataVersion} (known : p.version = some version)
      (header : o.header = .ok version) (phase : p.phase = .done) (sound : o.fault = none) :
      Stands o [] p

namespace Stands

variable {o : Outline} {left : List Section} {p : Parser}

/-- The answer to a call is the one of the outline, and unless it is a refusal, the parser stands
where the outline stands. -/
def Follows (o : Outline) (left : List Section) (p : Parser) (c : Call) : Prop :=
  (p.call c).1 = (o.answer left c).1 ∧
    ((p.call c).1.isRefused = false → Stands o (o.answer left c).2 (p.call c).2)

theorem follows_header {version : DataVersion} (stands : Stands o left p)
    (known : p.version = some version) (header : o.header = .ok version) :
    Follows o left p .header := by
  rw [Follows]
  simp only [Parser.call, Parser.readHeader_of_known known, Outline.answer, header]
  exact ⟨trivial, fun _ => stands⟩

/-- Among the sections the next one is the next of the outline. -/
theorem follows_next {version : DataVersion} (known : p.version = some version)
    (header : o.header = .ok version) (phase : p.phase = .sections)
    (rest : p.sections = (left, o.fault)) : Follows o left p .next := by
  rw [Follows]
  cases run : p.nextSection with
  | error e p' =>
    rw [Parser.sections_of_error run, Prod.mk.injEq] at rest
    obtain ⟨rfl, fault⟩ := rest
    simp [Parser.call, run, Outline.answer, Outline.ending, ← fault, Answer.isRefused]
  | ok found p' =>
    have body := (Parser.nextSection_of_sections phase).symm.trans run
    cases found with
    | none =>
      rw [Parser.sections_of_none run, Prod.mk.injEq] at rest
      obtain ⟨rfl, fault⟩ := rest
      obtain ⟨_, _, r, -, -, -, -, rfl⟩ := Parser.nextInBody_ended_iff.1 body
      simp only [Parser.call, run, Outline.answer, Outline.ending, ← fault]
      exact ⟨trivial, fun _ => .done known header rfl fault.symm⟩
    | some s =>
      rw [Parser.sections_of_some run, Prod.mk.injEq] at rest
      obtain ⟨rfl, fault⟩ := rest
      obtain ⟨_, _, _, r, -, -, -, rfl⟩ := Parser.nextInBody_eq_some_iff.1 body
      simp only [Parser.call, run, Outline.answer]
      exact ⟨trivial, fun _ => .among known header phase (Prod.ext rfl fault)⟩

/-- At the beginning the header is read, and then the parser stands among the sections. -/
theorem follows_start (unread : p.version = none) (phase : p.phase = .start) (c : Call) :
    Follows p.outline p.outline.sections p c := by
  rw [Follows]
  cases run : p.readHeader with
  | error e p' =>
    have outline : p.outline = ⟨.error e, [], some e⟩ := by rw [Parser.outline, run]
    cases c <;> simp [Parser.call, Parser.nextSection_of_start (.inl phase), run, outline,
      Outline.answer, Outline.ending, Answer.isRefused]
  | ok version p' =>
    have outline : p.outline = ⟨.ok version, p'.sections.1, p'.sections.2⟩ := by
      rw [Parser.outline, run]
    obtain ⟨_, r, -, -, rfl⟩ := (Parser.readHeader_eq_ok_iff unread).1 run
    cases c with
    | header =>
      simp only [Parser.call, run, outline, Outline.answer]
      exact ⟨trivial, fun _ => .among rfl rfl rfl rfl⟩
    | next =>
      have same : p.call .next = Parser.call ⟨r, .sections, some version⟩ .next := by
        rw [Parser.call, Parser.nextSection_of_start (.inl phase), run]
        rfl
      have follows : Follows p.outline p.outline.sections ⟨r, .sections, some version⟩ .next := by
        rw [outline]
        exact follows_next rfl rfl rfl rfl
      rwa [Follows, ← same] at follows

/-- One call: as long as the parser has not refused, it stands where its outline stands. -/
theorem follows (stands : Stands o left p) (c : Call) : Follows o left p c := by
  cases stands with
  | start unread phase same =>
    subst same
    exact follows_start unread phase c
  | among known header phase rest =>
    cases c with
    | header => exact follows_header (.among known header phase rest) known header
    | next => exact follows_next known header phase rest
  | done known header phase sound =>
    cases c with
    | header => exact follows_header (.done known header phase sound) known header
    | next =>
      rw [Follows]
      simp only [Parser.call, Parser.nextSection_of_done phase, Outline.answer, Outline.ending,
        sound]
      exact ⟨trivial, fun _ => .done known header phase sound⟩

/-- Any calls: up to the first refusal the answers are those of the outline. -/
theorem untilRefused_answers (stands : Stands o left p) (calls : List Call) :
    untilRefused (p.answers calls) = untilRefused (o.answersFrom left calls) := by
  induction calls generalizing left p with
  | nil => rfl
  | cons c calls ih =>
    obtain ⟨same, goes⟩ := stands.follows c
    rw [Parser.answers, Outline.answersFrom, untilRefused, untilRefused, ← same]
    cases refused : (p.call c).1.isRefused with
    | true => rfl
    | false => rw [if_neg (by simp), if_neg (by simp), ih (goes refused)]

/-- Any calls: if the outline refuses none of them, all the answers are those of the outline. -/
theorem answers_of_accepts (stands : Stands o left p) {calls : List Call}
    (accepts : ∀ a ∈ o.answersFrom left calls, a.isRefused = false) :
    p.answers calls = o.answersFrom left calls := by
  induction calls generalizing left p with
  | nil => rfl
  | cons c calls ih =>
    obtain ⟨same, goes⟩ := stands.follows c
    obtain ⟨first, others⟩ := List.forall_mem_cons.1 accepts
    rw [Parser.answers, Outline.answersFrom, same, ih (goes (same ▸ first)) others]

end Stands

/-- A document without faults refuses nothing. -/
theorem Outline.accepts_of_complete (envelope : Envelope) (left : List Section)
    (calls : List Call) :
    ∀ a ∈ (complete envelope).answersFrom left calls, a.isRefused = false := by
  induction calls generalizing left with
  | nil => exact List.forall_mem_nil _
  | cons c calls ih =>
    refine List.forall_mem_cons.2 ⟨?_, ih _⟩
    cases c with
    | header => rfl
    | next => cases left <;> rfl

/-! ### The outline in the document -/

/-- Elements one after the other, with the sections that they stand for. -/
inductive Children : List Section → List Lexeme → Prop where
  | nil : Children [] []
  | cons {tag : StartTag} {content : List Char} {sections : List Section}
      {lexemes others : List Lexeme} (child : Child tag content lexemes)
      (rest : Children sections others) :
      Children (sectionOf tag content :: sections) (lexemes ++ others)

/-- The outline is the beginning of the document in front of the reader: behind the header, with the
root element alone open, its sections are the first children. -/
inductive Outline.Heads (r : Reader) : Outline → Prop where
  | none {e : Error} : Heads r ⟨.error e, [], some e⟩
  | some {version : DataVersion} {sections : List Section} {fault : Option Error}
      {head lexemes : List Lexeme} {r₁ r' : Reader} (header : Header version head)
      (before : r.Reads head r₁) (depth : r₁.opened = [rootName])
      (children : Children sections lexemes) (reads : r₁.Reads lexemes r') :
      Heads r ⟨.ok version, sections, fault⟩

namespace Parser

variable {p p' : Parser}

theorem children_of_sections {ss : List Section} {fault : Option Error}
    (phase : p.phase = .sections) (run : p.sections = (ss, fault)) :
    ∃ lexemes r, Children ss lexemes ∧ p.reader.Reads lexemes r := by
  induction ss generalizing p with
  | nil => exact ⟨[], p.reader, .nil, .nil _⟩
  | cons s ss ih =>
    obtain ⟨p', first, rest⟩ := sections_eq_cons_iff.1 run
    rw [nextSection_of_sections phase] at first
    obtain ⟨tag, content, lexemes, r, child, rfl, reads, rfl⟩ := nextInBody_eq_some_iff.1 first
    obtain ⟨others, r', children, after⟩ := ih (p := p.behind r) phase rest
    exact ⟨lexemes ++ others, r', .cons child children, reads.append after⟩

theorem heads_outline (unread : p.version = none) (outside : p.reader.opened = []) :
    p.outline.Heads p.reader := by
  rw [outline]
  cases run : p.readHeader with
  | error e p' => exact .none
  | ok version p' =>
    obtain ⟨head, r₁, header, before, rfl⟩ := (readHeader_eq_ok_iff unread).1 run
    obtain ⟨lexemes, r', children, reads⟩ :=
      children_of_sections (p := ⟨r₁, .sections, some version⟩) rfl rfl
    have depth := opened_of_header header before
    rw [outside] at depth
    exact .some header before depth children reads

theorem eq_ofText {octets : ByteArray} (start : ofBytes octets = .ok p) :
    ∃ text, p = ofText text := by
  rw [ofBytes] at start
  cases read : Utf8.decode octets with
  | error fault =>
    rw [read] at start
    cases start
  | ok text =>
    rw [read] at start
    cases start
    exact ⟨text, rfl⟩

/-- Decoding a document finds its outline. -/
theorem decode_eq_outline {octets : ByteArray} (start : ofBytes octets = .ok p) :
    decode octets = match p.outline.fault with
      | some e => .error e
      | none => p.outline.header.map fun version => ⟨version, p.outline.sections⟩ := by
  simp only [decode, start, Bind.bind, Except.bind, outline]
  cases p.readHeader with
  | error e p' => rfl
  | ok version p' =>
    simp only
    cases p'.sections with
    | mk sections fault => cases fault <;> rfl

theorem outline_of_decode {octets : ByteArray} {envelope : Envelope}
    (start : ofBytes octets = .ok p) (decoded : decode octets = .ok envelope) :
    p.outline = .complete envelope := by
  rw [decode_eq_outline start] at decoded
  cases same : p.outline with
  | mk header sections fault =>
    rw [same] at decoded
    cases fault with
    | some e => cases decoded
    | none =>
      cases header with
      | error e => cases decoded
      | ok version =>
        cases decoded
        rfl

/-- A document that does not decode is refused for the fault of its outline. -/
theorem fault_of_decode {octets : ByteArray} {e : Error} (start : ofBytes octets = .ok p)
    (refused : decode octets = .error e) : p.outline.fault = some e := by
  rw [decode_eq_outline start] at refused
  have headed : ∀ e, p.outline.header = .error e → p.outline.fault = some e := by
    rw [outline]
    cases p.readHeader <;> simp
  cases fault : p.outline.fault with
  | some e' =>
    rw [fault] at refused
    cases refused
    rfl
  | none =>
    rw [fault] at refused
    cases header : p.outline.header with
    | error e' =>
      rw [headed e' header] at fault
      cases fault
    | ok version =>
      rw [header] at refused
      cases refused

/-! ### What a call looks for -/

/-- The tokens in front of the reader are a child of the element around it, or the end of that
element, or of the text outside of all elements, with nothing behind it. -/
inductive Offers (r : Reader) : Prop where
  | child {tag : StartTag} {content : List Char} {lexemes : List Lexeme} {r' : Reader}
      (child : Child tag content lexemes) (reads : r.Reads lexemes r')
  | closing {name text : List Char} {outer : List (List Char)} {gap trailing : List Lexeme}
      {r' : Reader} (opened : r.opened = name :: outer) (misc : Misc gap) (rest : Trailing trailing)
      (reads : r.Reads (gap ++ ⟨.closing name, text⟩ :: trailing) r') (ended : r'.rest = [])
  | outside {gap : List Lexeme} {r' : Reader} (opened : r.opened = []) (misc : Misc gap)
      (reads : r.Reads gap r') (ended : r'.rest = [])

theorem nextInBody_succeeds_iff :
    (∃ found p', nextInBody p = .ok found p') ↔ Offers p.reader := by
  constructor
  · rintro ⟨_ | s, p', run⟩
    · obtain ⟨r₁, trailing, r, found, all, after, ended, rfl⟩ := nextInBody_ended_iff.1 run
      cases opened : p.reader.opened with
      | nil =>
        obtain ⟨gap, misc, before, ended'⟩ := (Reader.nextChild_outside_iff opened).1 found
        exact .outside opened misc before ended'
      | cons name outer =>
        obtain ⟨gap, text, misc, before⟩ := (Reader.nextChild_eq_none_iff opened).1 found
        have reads := before.append after
        rw [List.append_assoc, List.singleton_append] at reads
        exact .closing opened misc all reads ended
    · obtain ⟨tag, content, lexemes, r, child, -, reads, -⟩ := nextInBody_eq_some_iff.1 run
      exact .child child reads
  · rintro (⟨child, reads⟩ | ⟨opened, misc, all, reads, ended⟩ | ⟨opened, misc, reads, ended⟩)
    · exact ⟨_, _, nextInBody_eq_some_iff.2 ⟨_, _, _, _, child, rfl, reads, rfl⟩⟩
    · rw [← List.singleton_append, ← List.append_assoc] at reads
      obtain ⟨r₁, before, after⟩ := Reader.reads_append_iff.1 reads
      have found := (Reader.nextChild_eq_none_iff opened).2 ⟨_, _, misc, before⟩
      exact ⟨_, _, nextInBody_ended_iff.2 ⟨r₁, _, _, found, all, after, ended, rfl⟩⟩
    · have found := (Reader.nextChild_outside_iff opened).2 ⟨_, misc, reads, ended⟩
      exact ⟨_, _, nextInBody_ended_iff.2
        ⟨_, [], _, found, Markup.allOf_nil _, .nil _, ended, rfl⟩⟩

/-- The reader behind the header: where the parser stands if it knows the version already, and
otherwise behind the header in front of it. -/
inductive Headed (p : Parser) : Reader → Prop where
  | known {version : DataVersion} (known : p.version = some version) : Headed p p.reader
  | found {version : DataVersion} {lexemes : List Lexeme} {r : Reader} (unread : p.version = none)
      (header : Header version lexemes) (reads : p.reader.Reads lexemes r) : Headed p r

/-- What is in front of the parser is what the call looks for: a header if there was none yet, a
section, or the end. -/
def Finds (p : Parser) : Call → Prop
  | .header => p.version = none ∧ ∃ r, p.Headed r
  | .next => p.phase = .done ∨ ∃ r, p.Headed r ∧ Offers r

/-- Among the sections the version is known. -/
def Coherent (p : Parser) : Prop :=
  p.phase = .sections → p.version ≠ none

/-- The answer is a refusal, or the version that was accepted before. -/
def Keeps (p : Parser) (a : Answer) : Prop :=
  a.isRefused = true ∨ ∃ version, p.version = some version ∧ a = .version version

/-- The header is read exactly up to the readers behind it. -/
theorem headed_iff {r : Reader} :
    p.Headed r ↔ ∃ version p', readHeader p = .ok version p' ∧ p'.reader = r := by
  constructor
  · rintro (known | ⟨unread, header, reads⟩)
    · exact ⟨_, p, readHeader_of_known known, rfl⟩
    · exact ⟨_, _, (readHeader_eq_ok_iff unread).2 ⟨_, _, header, reads, rfl⟩, rfl⟩
  · rintro ⟨version, p', run, rfl⟩
    cases known : p.version with
    | some accepted =>
      rw [readHeader_of_known known] at run
      cases run
      exact .known known
    | none =>
      obtain ⟨lexemes, r, header, reads, rfl⟩ := (readHeader_eq_ok_iff known).1 run
      exact .found known header reads

theorem nextSection_succeeds_iff (coherent : p.Coherent) :
    (∃ found p', nextSection p = .ok found p') ↔ p.Finds .next := by
  have early (start : p.phase = .start ∨ p.phase = .header) :
      (∃ found p', nextSection p = .ok found p') ↔ ∃ r, p.Headed r ∧ Offers r := by
    rw [nextSection_of_start start]
    constructor
    · rintro ⟨found, p', run⟩
      split at run
      · rename_i version p₁ first
        exact ⟨p₁.reader, headed_iff.2 ⟨version, p₁, first, rfl⟩,
          nextInBody_succeeds_iff.1 ⟨found, p', run⟩⟩
      · cases run
    · rintro ⟨_, headed, offers⟩
      obtain ⟨version, p₁, first, rfl⟩ := headed_iff.1 headed
      rw [first]
      exact nextInBody_succeeds_iff.2 offers
  have unfinished (phase : p.phase ≠ .done) :
      p.Finds .next ↔ ∃ r, p.Headed r ∧ Offers r :=
    or_iff_right phase
  cases phase : p.phase with
  | start => rw [unfinished (by simp [phase]), early (.inl phase)]
  | header => rw [unfinished (by simp [phase]), early (.inr phase)]
  | sections =>
    rw [unfinished (by simp [phase]), nextSection_of_sections phase, nextInBody_succeeds_iff]
    obtain ⟨version, known⟩ := Option.ne_none_iff_exists'.1 (coherent phase)
    constructor
    · exact fun offers => ⟨_, .known known, offers⟩
    · rintro ⟨_, headed, offers⟩
      obtain ⟨_, _, run, rfl⟩ := headed_iff.1 headed
      rw [readHeader_of_known known] at run
      cases run
      exact offers
  | done => exact ⟨fun _ => .inl phase, fun _ => ⟨none, p, nextSection_of_done phase⟩⟩

/-- A call returns a section, the end, or a version that was not accepted before, exactly if what it
looks for is in front of the parser. -/
theorem keeps_iff (coherent : p.Coherent) (c : Call) :
    p.Keeps (p.call c).1 ↔ ¬ p.Finds c := by
  cases c with
  | header =>
    cases known : p.version with
    | some version =>
      simp [Keeps, call, readHeader_of_known known, known, Finds, Answer.isRefused]
    | none =>
      have found : p.Finds .header ↔ ∃ version p', readHeader p = .ok version p' := by
        constructor
        · rintro ⟨_, r, headed⟩
          obtain ⟨version, p', run, -⟩ := headed_iff.1 headed
          exact ⟨version, p', run⟩
        · rintro ⟨version, p', run⟩
          exact ⟨known, _, headed_iff.2 ⟨version, p', run, rfl⟩⟩
      rw [found]
      cases run : p.readHeader <;> simp [Keeps, call, run, known, Answer.isRefused]
  | next =>
    rw [← nextSection_succeeds_iff coherent]
    cases run : p.nextSection with
    | error e p' => simp [Keeps, call, run, Answer.isRefused]
    | ok found p' => cases found <;> simp [Keeps, call, run, Answer.isRefused]

/-! ### What calls leave -/

/-- The parser that an operation leaves, whether it succeeds or fails. -/
def leaves {α : Type} : EStateM.Result Error Parser α → Parser
  | .ok _ p => p
  | .error _ p => p

/-- Whether it succeeds or fails, the operation leaves a coherent parser coherent. -/
def KeepsCoherent {α : Type} (m : Parse α) : Prop :=
  ∀ p : Parser, p.Coherent → (leaves (m p)).Coherent

namespace KeepsCoherent

variable {α β : Type}

theorem reading (wrap : Markup.Error → Error) (m : Read α) :
    KeepsCoherent (Parser.reading wrap m) := by
  intro p coherent
  rw [Parser.reading]
  cases m p.reader <;> exact coherent

theorem throw (e : Error) : KeepsCoherent (MonadExcept.throw e : Parse α) :=
  fun _ coherent => coherent

theorem pure (a : α) : KeepsCoherent (Pure.pure a : Parse α) :=
  fun _ coherent => coherent

theorem bind {m : Parse α} {f : α → Parse β} (first : KeepsCoherent m)
    (second : ∀ a, KeepsCoherent (f a)) : KeepsCoherent (m >>= f) := by
  intro p coherent
  have here := first p coherent
  rw [run_bind]
  cases run : m p <;> rw [run] at here
  · exact second _ _ here
  · exact here

theorem modify {f : Parser → Parser} (sound : ∀ p, (f p).Coherent) :
    KeepsCoherent (modify f : Parse Unit) :=
  fun p _ => sound p

theorem seekRoot : KeepsCoherent seekRoot := by
  intro p coherent
  induction hn : p.left using Nat.strongRecOn generalizing p with
  | ind n ih =>
    subst hn
    rw [Parser.seekRoot]
    split
    · exact coherent
    · exact coherent
    · rename_i scanned r step
      have short : (p.behind r).left < p.left := Reader.left_lt step
      have goesOn := ih _ short (p.behind r) coherent rfl
      simp only
      split
      · exact goesOn
      · exact goesOn
      · split
        · exact goesOn
        · exact coherent
      · exact coherent
      · exact coherent
      · split <;> exact coherent

theorem readVersion : KeepsCoherent readVersion := by
  refine .bind (.reading _ _) fun child => ?_
  split
  · exact .throw _
  · split
    · split
      · exact .throw _
      · refine .bind (.reading _ _) fun _ => ?_
        split
        · exact .throw _
        · exact .pure _
    · exact .throw _

theorem skipIntegrity : KeepsCoherent skipIntegrity := by
  refine .bind (.reading _ _) fun child => ?_
  split
  · exact .throw _
  · split
    · exact .reading _ _
    · exact .throw _

theorem readHeader : KeepsCoherent readHeader := by
  refine .bind (fun _ coherent => coherent) fun p => ?_
  split
  · exact .pure _
  · refine .bind .seekRoot fun _ => .bind (.modify fun _ => nofun) fun _ =>
      .bind .readVersion fun version => ?_
    split
    · exact .bind .skipIntegrity fun _ => .bind (.modify fun _ _ => nofun) fun _ => .pure _
    · exact .bind (.modify fun _ _ => nofun) fun _ => .pure _

theorem finish : KeepsCoherent finish := by
  intro p coherent
  induction hn : p.left using Nat.strongRecOn generalizing p with
  | ind n ih =>
    subst hn
    rw [Parser.finish]
    split
    · exact coherent
    · exact nofun
    · rename_i scanned r step
      have goesOn := ih _ (Reader.left_lt step) (p.behind r) coherent rfl
      simp only
      split
      · exact goesOn
      · split
        · exact goesOn
        · exact coherent
      · exact coherent

theorem nextInBody : KeepsCoherent nextInBody := by
  refine .bind (.reading _ _) fun child => ?_
  split
  · exact .bind .finish fun _ => .pure _
  · exact .bind (.reading _ _) fun _ => .pure _

theorem nextSection : KeepsCoherent nextSection := by
  refine .bind (fun _ coherent => coherent) fun p => ?_
  split
  · exact .pure _
  · exact .nextInBody
  · exact .bind .readHeader fun _ => .nextInBody
  · exact .bind .readHeader fun _ => .nextInBody

end KeepsCoherent

theorem coherent_call (coherent : p.Coherent) (c : Call) : (p.call c).2.Coherent := by
  cases c with
  | header =>
    have kept := KeepsCoherent.readHeader p coherent
    cases run : p.readHeader <;> rw [run] at kept <;> simpa only [call, run, leaves] using kept
  | next =>
    have kept := KeepsCoherent.nextSection p coherent
    cases run : p.nextSection with
    | error e p' =>
      rw [run] at kept
      simpa only [call, run, leaves] using kept
    | ok found p' =>
      rw [run] at kept
      cases found <;> simpa only [call, run, leaves] using kept

theorem coherent_after (coherent : p.Coherent) (calls : List Call) : (p.after calls).Coherent := by
  induction calls generalizing p with
  | nil => exact coherent
  | cons c calls ih => exact ih (coherent_call coherent c)

end Parser

/-! ### All calls -/

/-- What the calls of a parser have to do with decoding the same octets. -/
structure AgreesWithDecode (octets : ByteArray) (p : Parser) : Prop where
  /-- A document that decodes is what all the answers tell, in whatever order they are asked for. -/
  accepted : ∀ envelope, decode octets = .ok envelope →
    p.outline = .complete envelope ∧ ∀ calls, p.answers calls = p.outline.answers calls
  /-- Otherwise the answers tell the version and the sections before the fault, and then the error
  that decoding ends with. -/
  refused : ∀ e, decode octets = .error e → p.outline.fault = some e ∧
    ∀ calls, untilRefused (p.answers calls) = untilRefused (p.outline.answers calls)
  /-- The sections told so far are children of the root element. -/
  depth : p.outline.Heads p.reader
  /-- A call, behind any others, returns no section, no end and no other version than before exactly
  if what it looks for is not in front of the parser. -/
  resumed : ∀ before c,
    (p.after before).Keeps ((p.after before).call c).1 ↔ ¬ (p.after before).Finds c

/-- A parser that is called in any order and a decoding of the same octets agree, up to the first
refusal on what the document has to offer, and from there on as the grammar has it. -/
theorem agreesWithDecode_of_ofBytes {octets : ByteArray} {p : Parser}
    (start : Parser.ofBytes octets = .ok p) : AgreesWithDecode octets p := by
  obtain ⟨text, same⟩ := Parser.eq_ofText start
  have unread : p.version = none := by rw [same]; rfl
  have phase : p.phase = .start := by rw [same]; rfl
  have outside : p.reader.opened = [] := by rw [same]; rfl
  have stands : Stands p.outline p.outline.sections p := .start unread phase rfl
  have coherent : p.Coherent := fun among => by rw [phase] at among; cases among
  constructor
  case accepted =>
    intro envelope decoded
    have complete := Parser.outline_of_decode start decoded
    refine ⟨complete, fun calls => ?_⟩
    have accepts : ∀ a ∈ p.outline.answers calls, a.isRefused = false := by
      rw [complete]
      exact Outline.accepts_of_complete envelope _ calls
    exact stands.answers_of_accepts accepts
  case refused =>
    intro e refused
    exact ⟨Parser.fault_of_decode start refused, fun calls => stands.untilRefused_answers calls⟩
  case depth => exact Parser.heads_outline unread outside
  case resumed => exact fun before c => Parser.keeps_iff (Parser.coherent_after coherent before) c

/-- A document with a section whose tags are not balanced, and with elements inside of it. -/
def unbalancedDocument : List Char :=
  openTag rootName ++ intElement versionName 3 ++ openTag ['A'] ++ openTag ['b'] ++ openTag ['c'] ++
    closeTag ['b'] ++ openTag ['D'] ++ openTag ['E'] ++ ['x'] ++ closeTag ['E'] ++ closeTag ['D'] ++
    closeTag ['A'] ++ closeTag rootName

theorem ofBytes_unbalanced :
    Parser.ofBytes (Utf8.encode unbalancedDocument) = .ok (.ofText unbalancedDocument) := by
  rw [Parser.ofBytes, Utf8.decode_encode]
  rfl

theorem agreesWithDecode_unbalanced :
    ∃ p, Parser.ofBytes (Utf8.encode unbalancedDocument) = .ok p ∧
      AgreesWithDecode (Utf8.encode unbalancedDocument) p :=
  ⟨_, ofBytes_unbalanced, agreesWithDecode_of_ofBytes ofBytes_unbalanced⟩

/-- The document is refused, and then a part of the payload comes as a section, and a clean end. -/
theorem refused_document_goes_on :
    decode (Utf8.encode unbalancedDocument) = .error (.markup (.mismatchedTag 58 ['c'] ['b'])) ∧
      (Parser.ofText unbalancedDocument).answers [.header, .next, .next, .next, .next, .next] =
        [.version .current, .refused (.markup (.mismatchedTag 58 ['c'] ['b'])),
          .refused (.trailingContent 62), .one ⟨"E", Utf8.encode ['x']⟩,
          .refused (.trailingContent 77), .ended] := by
  have fault : (Parser.ofText unbalancedDocument).outline.fault =
      some (.markup (.mismatchedTag 58 ['c'] ['b'])) := by decide +kernel
  refine ⟨?_, by decide +kernel⟩
  rw [Parser.decode_eq_outline ofBytes_unbalanced, fault]

end SectionStore.Envelope
