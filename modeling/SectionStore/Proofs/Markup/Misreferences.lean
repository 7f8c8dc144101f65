import SectionStore.Proofs.Markup.Fragment
import SectionStore.Proofs.Markup.References
import SectionStore.Proofs.Markup.Retrying
import SectionStore.Proofs.Running

/-!
# Where the references that stand for nothing are

Character data and attribute values are the data of a text in which references stand;
`Token.Bears` says where in a token such data is. A `Misreference` is an ampersand in the data that
begins no reference. The check of a fragment has an error about one if there is one
(`exists_entity_error_iff`). It goes from left to right, so the error is about the leftmost one
(`exists_first`). The place that it tells is counted from the beginning of the token, which is the
place of the ampersand in character data only. Main statement: `misplaced_of_checkFragment`.
-/

namespace SectionStore.Markup

open Cut

/-- How attributes may be written in a row, each behind a gap. -/
inductive AttributeRun : List Attribute → List Char → Prop where
  | nil : AttributeRun [] []
  | cons {gap lexeme lexemes : List Char} {a : Attribute} {as : List Attribute}
      (blank : isBlank gap = true) (apart : gap ≠ []) (first : AttributeForm a lexeme)
      (others : AttributeRun as lexemes) : AttributeRun (a :: as) (gap ++ lexeme ++ lexemes)

/-- Data stands in a token, behind the characters `lead` that the token is written with: character
data, or the value of an attribute. -/
inductive Token.Bears : Token → List Char → List Char → List Char → Prop where
  | text {content : List Char} : Bears (.text content) content [] content
  | value {tag : StartTag} {a : Attribute} {before after : List Attribute} {quote : Char}
      {lead back : List Char} (among : tag.attributes = before ++ a :: after)
      (run : AttributeRun (before ++ [a]) (lead ++ a.raw ++ [quote])) :
      Bears (.opening tag) ('<' :: tag.name ++ (lead ++ a.raw ++ [quote] ++ back))
        ('<' :: tag.name ++ lead) a.raw

/-- An ampersand in the data of a text that begins no reference. -/
structure Misreference (text : List Char) where
  /-- The tokens in front of the one in which the ampersand stands. -/
  lexemes : List Lexeme
  last : Lexeme
  behind : Reader
  reads : Reader.Reads (.ofText text) (lexemes ++ [last]) behind
  lead : List Char
  raw : List Char
  bears : last.token.Bears last.text lead raw
  /-- The data in front of the ampersand and behind it. -/
  front : List Char
  rest : List Char
  split : raw = front ++ '&' :: rest
  fails : ¬ BeginsReference rest

namespace Misreference

variable {text : List Char}

/-- Where the token begins. -/
def tokenStart (m : Misreference text) : Nat :=
  Utf8.size (spell m.lexemes)

/-- Where the ampersand stands. -/
def place (m : Misreference text) : Nat :=
  m.tokenStart + Utf8.size (m.lead ++ m.front)

/-- What stands behind the ampersand, up to the next semicolon in the data. -/
def entity (m : Misreference text) : List Char :=
  m.rest.takeWhile (· != ';')

/-- No token in front of the one in which the ampersand stands is a declaration. -/
def IsReached (m : Misreference text) : Prop :=
  ∀ l ∈ m.lexemes, l.token ≠ .declaration

end Misreference

variable {text lexeme lead lead' raw raw' front rest entity : List Char} {token : Token}
  {a : Attribute} {as before after : List Attribute} {offset start : Nat} {e : Error}

/-! ### Data in a token -/

/-- In front of the value of an attribute stands a run of those before it. -/
theorem AttributesForm.exists_run {closes : Bool}
    (form : AttributesForm (before ++ a :: after) closes lexeme) :
    ∃ lead quote back, lexeme = lead ++ a.raw ++ [quote] ++ back ∧
      AttributeRun (before ++ [a]) (lead ++ a.raw ++ [quote]) := by
  induction before generalizing lexeme with
  | nil =>
    cases form with
    | @another gap first others _ _ _ blank apart form =>
      cases form with
      | @mk name space after raw quote named blank₁ blank₂ quoted inside plain =>
        refine ⟨gap ++ (name ++ space ++ '=' :: after ++ [quote]), quote, others, by simp, ?_⟩
        have run := AttributeRun.cons blank apart
          (.mk named blank₁ blank₂ quoted inside plain) .nil
        simpa using run
  | cons b before ih =>
    cases form with
    | @another gap first others _ _ _ blank apart form rest =>
      obtain ⟨lead, quote, back, rfl, run⟩ := ih rest
      refine ⟨gap ++ first ++ lead, quote, back, by simp, ?_⟩
      simpa using AttributeRun.cons blank apart form run

/-- An attribute begins where those before it have ended, however a text goes on. -/
theorem AttributeRun.isPrefix {bs : List Attribute} {run run' more more' : List Char}
    (first : AttributeRun as run) (second : AttributeRun (as ++ bs) run')
    (same : run ++ more = run' ++ more') : run <+: run' := by
  induction first generalizing run' with
  | nil => exact List.nil_prefix
  | @cons gap lexeme lexemes a as blank apart form _ ih =>
    cases second with
    | @cons gap' lexeme' lexemes' _ _ blank' _ form' others' =>
      simp only [List.append_assoc] at same
      -- the gap ends where the name begins, and the attribute where the scanner stops
      have gaps := gap_append blank (form.stopsAt (lexemes ++ more))
      rw [same] at gaps
      have gaps' := gap_append blank' (form'.stopsAt (lexemes' ++ more'))
      obtain rfl : gap = gap' := gaps.1.symm.trans gaps'.1
      have found := scanAttribute_of_form form (lexemes ++ more)
      rw [List.append_cancel_left same, scanAttribute_of_form form' (lexemes' ++ more')] at found
      obtain ⟨-, rfl, tails⟩ := Scanned.mk.inj (Except.ok.inj found)
      rw [List.prefix_append_right_inj]
      exact ih others' tails.symm

theorem AttributeRun.exists_of_append {bs : List Attribute} {run : List Char}
    (whole : AttributeRun (as ++ bs) run) :
    ∃ first second, run = first ++ second ∧ AttributeRun as first ∧ AttributeRun bs second := by
  induction as generalizing run with
  | nil => exact ⟨[], run, rfl, .nil, whole⟩
  | cons a as ih =>
    cases whole with
    | cons blank apart form others =>
      obtain ⟨first, second, rfl, run, run'⟩ := ih others
      exact ⟨_, second, (List.append_assoc _ _ _).symm, .cons blank apart form run, run'⟩

theorem AttributeRun.length_raw_lt {run : List Char} (single : AttributeRun [a] run) :
    a.raw.length < run.length := by
  cases single with
  | cons _ _ form others =>
    cases form with
    | mk =>
      simp only [List.length_append, List.length_cons]
      omega

/-- A value stands behind the attributes before it. -/
theorem AttributeRun.isPrefix_lead {bs : List Attribute} {quote : Char} {run more more' : List Char}
    (earlier : AttributeRun as run)
    (whole : AttributeRun (as ++ bs ++ [a]) (lead ++ a.raw ++ [quote]))
    (same : run ++ more = lead ++ a.raw ++ [quote] ++ more') : run <+: lead := by
  obtain ⟨first, second, parts, others, value⟩ := whole.exists_of_append
  rw [parts, List.append_assoc] at same
  have along : run <+: first := earlier.isPrefix others same
  -- the last attribute is longer than its value with the quote, so the others end in front of it
  have short := value.length_raw_lt
  have lengths := congrArg List.length parts
  simp only [List.length_append, List.length_singleton] at lengths
  have inside : lead <+: first ++ second := by
    rw [← parts, List.append_assoc]
    exact List.prefix_append _ _
  refine along.trans (List.prefix_of_prefix_length_le (List.prefix_append _ _) inside ?_)
  omega

/-- The value of an attribute has its place from the attributes before it. -/
theorem AttributeRun.lead_unique {quote quote' : Char} {more more' : List Char}
    (run : AttributeRun as (lead ++ raw ++ [quote])) (run' : AttributeRun as (lead' ++ raw ++ [quote']))
    (same : lead ++ raw ++ [quote] ++ more = lead' ++ raw ++ [quote'] ++ more') : lead = lead' := by
  have self : as = as ++ [] := (List.append_nil as).symm
  have along := run.isPrefix (self ▸ run') same
  have along' := run'.isPrefix (self ▸ run) same.symm
  have whole : lead ++ raw ++ [quote] = lead' ++ raw ++ [quote'] :=
    along.eq_of_length_le along'.length_le
  exact List.append_cancel_right (List.append_inj' whole rfl).1

/-- Each attribute value stands somewhere in the tag. -/
theorem TokenForm.exists_run {tag : StartTag} (form : TokenForm (.opening tag) lexeme)
    (among : tag.attributes = before ++ a :: after) :
    ∃ lead quote back, lexeme = '<' :: tag.name ++ (lead ++ a.raw ++ [quote] ++ back) ∧
      AttributeRun (before ++ [a]) (lead ++ a.raw ++ [quote]) := by
  cases form with
  | @opening name lexeme as closes named attributes =>
    dsimp only at among
    subst among
    obtain ⟨lead, quote, back, rfl, run⟩ := attributes.exists_run
    exact ⟨lead, quote, back, rfl, run⟩

theorem Token.Bears.isPrefix (bears : token.Bears lexeme lead raw) : lead ++ raw <+: lexeme := by
  cases bears with
  | text => simp
  | @value tag a before after quote lead back among run => exact ⟨quote :: back, by simp⟩

/-- Character data is the whole of its token, and an attribute value is not. -/
theorem Token.Bears.lead_eq_nil_iff (bears : token.Bears lexeme lead raw) :
    lead = [] ↔ ∃ content, token = .text content := by
  cases bears <;> simp

/-- In the data of a token that may stand in a payload every ampersand begins a reference. -/
theorem beginsReference_of_isAdmitted (admitted : token.isAdmitted = true)
    (bears : token.Bears lexeme lead raw) (split : raw = front ++ '&' :: rest) :
    BeginsReference rest := by
  have resolved : (Escape.resolve raw).isOk = true := by
    cases bears with
    | text => exact admitted
    | value among =>
      rw [Token.isAdmitted, among, List.all_eq_true] at admitted
      exact admitted _ List.mem_append_cons_self
  exact exists_resolves_iff.1 (exists_resolves_of_isOk resolved) front rest split

/-! ### The first error -/

/-- An ampersand in a token that begins no reference, with none in front of it. -/
structure Token.Misrefers (token : Token) (lexeme lead raw front rest : List Char) : Prop where
  bears : token.Bears lexeme lead raw
  unresolved : FirstUnresolved raw front rest
  first : ∀ lead' raw' front' rest', token.Bears lexeme lead' raw' → raw' = front' ++ '&' :: rest' →
    ¬ BeginsReference rest' → lead ++ front <+: lead' ++ front'

theorem misrefers_text {content : List Char} (unresolved : FirstUnresolved content front rest) :
    Token.Misrefers (.text content) content [] content front rest where
  bears := .text
  unresolved := unresolved
  first := by
    intro lead' raw' front' rest' bears split fails
    cases bears with
    | text => exact unresolved.isPrefix split fails

theorem misrefers_opening {tag : StartTag} (form : TokenForm (.opening tag) lexeme)
    (among : tag.attributes = before ++ a :: after) (unresolved : FirstUnresolved a.raw front rest)
    (earlier : ∀ b ∈ before, ∃ text, Resolves b.raw text) :
    ∃ lead, Token.Misrefers (.opening tag) lexeme lead a.raw front rest := by
  obtain ⟨lead, quote, back, written, run⟩ := form.exists_run among
  refine ⟨'<' :: tag.name ++ lead, written ▸ .value among run, unresolved, ?_⟩
  intro lead' raw' front' rest' bears split fails
  cases bears with
  | @value tag b before' after' quote' lead' back' among' run' =>
    have same := List.append_cancel_left written
    rw [List.append_assoc, List.append_assoc, List.prefix_append_right_inj]
    rcases compare_places (among.symm.trans among') with
      ⟨rfl, rfl, -⟩ | ⟨inner, rfl, -⟩ | ⟨inner, rfl, -⟩
    · obtain rfl : lead' = lead := run'.lead_unique run same
      rw [List.prefix_append_right_inj]
      exact unresolved.isPrefix split fails
    · -- the other attribute follows, so this value ends in front of it
      have whole : AttributeRun (before ++ [a] ++ inner ++ [b]) (lead' ++ b.raw ++ [quote']) := by
        simpa using run'
      have earlier : lead ++ a.raw ++ [quote] <+: lead' := run.isPrefix_lead whole same.symm
      have inside : lead ++ front <+: lead ++ a.raw ++ [quote] := by
        rw [unresolved.split]
        exact ⟨'&' :: rest ++ [quote], by simp⟩
      exact inside.trans (earlier.trans (List.prefix_append _ _))
    · obtain ⟨text, resolves⟩ := earlier b List.mem_append_cons_self
      exact absurd (resolves.beginsReference _ _ split) fails

/-- An error about a token of content is placed as far behind the beginning of the token as the
ampersand stands behind the beginning of its data. -/
theorem misrefers_of_checkToken (form : TokenForm token lexeme) (other : token ≠ .declaration)
    (failed : checkToken start token = .error e) :
    ∃ lead raw front rest, token.Misrefers lexeme lead raw front rest ∧
      e = .invalidEntity (start + Utf8.size front) (rest.takeWhile (· != ';')) := by
  cases token with
  | text content =>
    obtain ⟨rfl, plain⟩ := form.of_text
    obtain ⟨front, rest, unresolved, place⟩ :=
      firstUnresolved_of_unescape plain (unescape_of_map failed)
    exact ⟨[], lexeme, front, rest, misrefers_text unresolved, place⟩
  | opening tag =>
    obtain ⟨before, a, after, among, passed, stopped⟩ := exists_of_forM_eq_error failed
    have plain := form.not_mem_raw a (among ▸ List.mem_append_cons_self)
    obtain ⟨front, rest, unresolved, place⟩ :=
      firstUnresolved_of_unescape plain (unescape_of_map stopped)
    have earlier : ∀ b ∈ before, ∃ text, Resolves b.raw text := by
      intro b inside
      exact exists_resolves_of_isOk (unescape_eq_ok_iff.1 (passed b inside))
    obtain ⟨lead, misrefers⟩ := misrefers_opening form among unresolved earlier
    exact ⟨lead, a.raw, front, rest, misrefers, place⟩
  | declaration => exact absurd rfl other
  | comment => cases failed
  | cdata content => cases failed
  | closing name => cases failed

/-- A call of the reader never fails for an entity. -/
theorem not_failsWith_invalidEntity {r r' : Reader} :
    ¬ r.FailsWith (.invalidEntity offset entity) r' := by
  intro fails
  generalize whole : Error.invalidEntity offset entity = e at fails
  cases fails with
  | @noToken fault => cases fault <;> cases whole
  | notOpened => cases whole
  | mismatched => cases whole

namespace Misreference

/-- The text goes on at the place with the ampersand and the entity. -/
theorem slice_place (m : Misreference text) :
    slice text m.place (m.place + Utf8.size ('&' :: m.entity)) = Utf8.encode ('&' :: m.entity) := by
  obtain ⟨back, written⟩ := m.bears.isPrefix
  obtain ⟨more, parts⟩ : m.entity <+: m.rest := List.takeWhile_prefix _
  have whole : text = spell m.lexemes ++ (m.lead ++ m.front) ++
      ('&' :: m.entity ++ (more ++ back ++ m.behind.rest)) := by
    calc
      text = spell m.lexemes ++ m.last.text ++ m.behind.rest := by
        simpa [Reader.ofText] using m.reads.rest_eq
      _ = spell m.lexemes ++ (m.lead ++ (m.front ++ '&' :: (m.entity ++ more)) ++ back) ++
          m.behind.rest := by rw [parts, ← m.split, written]
      _ = _ := by simp
  have octets := slice_append (spell m.lexemes ++ (m.lead ++ m.front)) ('&' :: m.entity)
    (more ++ back ++ m.behind.rest)
  have here : m.place = Utf8.size (spell m.lexemes ++ (m.lead ++ m.front)) := by
    rw [place, tokenStart, ← Utf8.size_append]
  rwa [← whole, ← here] at octets

theorem place_le_of_isPrefix {m other : Misreference text}
    (tokens : spell m.lexemes = spell other.lexemes)
    (along : m.lead ++ m.front <+: other.lead ++ other.front) : m.place ≤ other.place := by
  have := size_le_of_isPrefix along
  rw [place, place, tokenStart, tokenStart, tokens]
  omega

/-- What stands in a token stands in front of the tokens that follow. -/
theorem place_le_of_later {m other : Misreference text}
    (later : m.lexemes ++ [m.last] <+: other.lexemes) : m.place ≤ other.place := by
  obtain ⟨between, tokens⟩ := later
  have inside : m.lead ++ m.front <+: m.last.text := by
    refine List.IsPrefix.trans ?_ m.bears.isPrefix
    rw [m.split, ← List.append_assoc]
    exact List.prefix_append _ _
  have := size_le_of_isPrefix inside
  rw [place, place, tokenStart, tokenStart, ← tokens]
  simp only [spell_append, spell_cons, spell_nil, Utf8.size_append, Utf8.size_nil] at *
  omega

/-- Behind tokens that pass the check, the first ampersand of a token that begins no reference is the
leftmost of the text. -/
theorem place_le_of_misrefers {m : Misreference text}
    (passed : AllOf Token.isAdmitted m.lexemes)
    (misrefers : m.last.token.Misrefers m.last.text m.lead m.raw m.front m.rest)
    (other : Misreference text) : m.place ≤ other.place := by
  have inOne (same : m.lexemes ++ [m.last] = other.lexemes ++ [other.last]) :
      m.place ≤ other.place := by
    obtain ⟨tokens, last⟩ := List.append_inj' same rfl
    have bears := other.bears
    rw [← List.singleton_inj.1 last] at bears
    have first := misrefers.first _ _ _ _ bears other.split other.fails
    exact place_le_of_isPrefix (congrArg spell tokens) first
  -- the other token is this one, or one behind it, or one that has passed
  rcases m.reads.prefix_or_isPrefix other.reads with ⟨others, along, -⟩ | ⟨others, along, -⟩
  · rcases List.prefix_concat_iff.1 ⟨others, along.symm⟩ with same | later
    · exact inOne same
    · exact place_le_of_later later
  · rcases List.prefix_concat_iff.1 ⟨others, along.symm⟩ with same | earlier
    · exact inOne same.symm
    · have inside := earlier.subset List.mem_append_cons_self
      exact absurd (beginsReference_of_isAdmitted (passed _ inside) other.bears other.split)
        other.fails

end Misreference

/-- The first error about a reference is about the leftmost one that stands for nothing. No token in
front of it is a declaration. -/
theorem exists_first (failed : checkFragment text = .error (.invalidEntity offset entity)) :
    ∃ m : Misreference text, (∀ other : Misreference text, m.place ≤ other.place) ∧
      m.entity = entity ∧ offset = m.tokenStart + Utf8.size m.front ∧ m.IsReached := by
  obtain ⟨lexemes, r, reads, admitted, ends⟩ := Reader.exists_of_checkFragment text
  rw [failed] at ends
  cases ends with
  | unread step =>
    have fails := (Reader.next_eq_error_iff.1 (Reader.next_eq_error_iff_nextScanned.2 step)).2
    exact absurd fails not_failsWith_invalidEntity
  | unclosed _ left =>
    obtain ⟨name, -, other⟩ := Option.map_eq_some_iff.1 left
    cases other
  | @refused scanned r' _ step refused =>
    let l : Lexeme := ⟨scanned.value, scanned.lexeme⟩
    have whole : Reader.Reads (.ofText text) (lexemes ++ [l]) r' := reads.append (.single step)
    have form : TokenForm l.token l.text :=
      whole.form_of_mem List.mem_append_cons_self
    have content : scanned.value ≠ .declaration := by
      intro kind
      rw [kind] at refused
      cases refused
    obtain ⟨lead, raw, front, rest, misrefers, place⟩ :=
      misrefers_of_checkToken form content refused
    obtain ⟨rfl, rfl⟩ := Error.invalidEntity.inj place
    have start : r'.tokenStart = Utf8.size (spell lexemes) := by
      have begun := (Reader.nextScanned_eq_some step).2.2.2.2
      rw [begun, reads.offset_eq, Reader.ofText, Nat.zero_add]
    let m : Misreference text := ⟨lexemes, l, r', whole, lead, raw, misrefers.bears, front, rest,
      misrefers.unresolved.split, misrefers.unresolved.fails⟩
    have reached : m.IsReached := by
      intro l inside kind
      have passed := admitted l inside
      rw [kind] at passed
      cases passed
    refine ⟨m, fun other => ?_, rfl, by rw [start]; rfl, reached⟩
    exact Misreference.place_le_of_misrefers (m := m) admitted misrefers other

/-- The check has an error about a reference exactly if some reference stands for nothing, and no
declaration is in front of it. -/
theorem exists_entity_error_iff :
    (∃ offset entity, checkFragment text = .error (.invalidEntity offset entity)) ↔
      ∃ m : Misreference text, m.IsReached := by
  constructor
  · rintro ⟨offset, entity, failed⟩
    obtain ⟨m, -, -, -, reached⟩ := exists_first failed
    exact ⟨m, reached⟩
  · rintro ⟨m, reached⟩
    obtain ⟨lexemes, r, reads, admitted, ends⟩ := Reader.exists_of_checkFragment text
    have refused : ∀ l ∈ lexemes, l ≠ m.last := by
      rintro l inside rfl
      exact m.fails (beginsReference_of_isAdmitted (admitted _ inside) m.bears m.split)
    have content : ∀ l ∈ m.lexemes ++ [m.last], l.token ≠ .declaration := by
      intro l inside kind
      rcases List.mem_append.1 inside with earlier | last
      · exact reached l earlier kind
      · obtain rfl := List.mem_singleton.1 last
        have bears := m.bears
        rw [kind] at bears
        cases bears
    -- the check does not come by the token, so it ends at one in front of it, or at this one
    rcases reads.prefix_or_isPrefix m.reads with ⟨others, along, further⟩ | ⟨others, along, -⟩
    · cases others with
      | nil =>
        rw [List.append_nil] at along
        exact absurd rfl (refused m.last (along ▸ List.mem_append_cons_self))
      | cons l others =>
        cases further with
        | @cons _ r₁ _ scanned _ step further =>
          have nonempty := (Reader.nextScanned_eq_some step).1
          generalize checkFragment text = result at ends ⊢
          cases ends with
          | accepted ended => exact absurd ended nonempty
          | unclosed ended => exact absurd ended nonempty
          | unread step' =>
            rw [step] at step'
            cases step'
          | refused step' failed =>
            rw [step] at step'
            cases step'
            have inside : ⟨scanned.value, scanned.lexeme⟩ ∈ m.lexemes ++ [m.last] :=
              along ▸ List.mem_append_cons_self
            have form := m.reads.form_of_mem inside
            obtain ⟨lead, raw, front, rest, -, rfl⟩ :=
              misrefers_of_checkToken form (content _ inside) failed
            exact ⟨_, _, rfl⟩
    · exact absurd rfl (refused m.last (along ▸ by simp))

/-- An entity error is about the leftmost reference of the fragment that stands for no character,
and names it. It is placed as far behind the beginning of the token as the reference stands behind
the beginning of its data. So it points at the reference in character data, and never does in the
value of an attribute. -/
theorem misplaced_of_checkFragment
    (failed : checkFragment text = .error (.invalidEntity offset entity)) :
    ∃ m : Misreference text, (∀ other : Misreference text, m.place ≤ other.place) ∧
      m.entity = entity ∧
      slice text m.place (m.place + Utf8.size ('&' :: entity)) = Utf8.encode ('&' :: entity) ∧
      offset + Utf8.size m.lead = m.place ∧
      (offset = m.place ↔ ∃ content, m.last.token = .text content) := by
  obtain ⟨m, leftmost, rfl, rfl, -⟩ := exists_first failed
  have place : m.tokenStart + Utf8.size m.front + Utf8.size m.lead = m.place := by
    rw [Misreference.place, Utf8.size_append]
    omega
  refine ⟨m, leftmost, rfl, m.slice_place, place, ?_⟩
  rw [← m.bears.lead_eq_nil_iff, ← size_eq_zero_iff]
  omega

theorem misplaced_of_checkFragment_secondValue :
    ∃ m : Misreference "é&amp;<b p=\"&lt;\" q='ü&nope;' r='&x'/>&y;".toList,
      (∀ other : Misreference "é&amp;<b p=\"&lt;\" q='ü&nope;' r='&x'/>&y;".toList,
        m.place ≤ other.place) ∧ m.entity = "nope".toList ∧
      slice "é&amp;<b p=\"&lt;\" q='ü&nope;' r='&x'/>&y;".toList m.place (m.place + 5) =
        Utf8.encode "&nope".toList ∧
      9 + Utf8.size m.lead = m.place ∧ (9 = m.place ↔ ∃ content, m.last.token = .text content) :=
  misplaced_of_checkFragment (eq_error_of_match (by decide +kernel))

/-- For a reference in an attribute value, the error tells the place of the tag. -/
theorem entity_error_points_at_tag :
    ∃ offset entity, checkFragment "<a x=\"&b;\"/>".toList = .error (.invalidEntity offset entity) ∧
      slice "<a x=\"&b;\"/>".toList offset (offset + Utf8.size ('&' :: entity)) ≠
        Utf8.encode ('&' :: entity) :=
  ⟨0, ['b'], eq_error_of_match (by decide +kernel), by decide +kernel⟩

end SectionStore.Markup
