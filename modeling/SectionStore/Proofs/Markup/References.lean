import Mathlib.Data.List.TakeWhile
import SectionStore.Markup.Escape
import SectionStore.Proofs.Text.Cutting
import SectionStore.Proofs.Text.Words

/-!
# References

The grammar of references, apart from the function that resolves them. A reference is an ampersand,
a body, and the first semicolon behind it; `StandsFor` says which bodies stand for which characters.
`Resolves` says what a whole raw text stands for. It is resolved from left to right, but no body
holds an ampersand, so every ampersand can be judged by what follows it (`exists_resolves_iff`), and
the first one that begins no reference is where resolving fails (`FirstUnresolved`).
Main statement: `unescape_decides`.
-/

namespace SectionStore.Markup

open Cut Integer Escape

/-- The characters that have a name. -/
def namedCharacters : List (List Char × Char) :=
  [(['a', 'm', 'p'], '&'), (['l', 't'], '<'), (['g', 't'], '>'), (['q', 'u', 'o', 't'], '"'),
    (['a', 'p', 'o', 's'], '\'')]

/-- The body of a reference stands for a character: it is the name of the character, or its number.
The number of a character always fits into 32 bits. -/
inductive StandsFor : List Char → Char → Prop where
  | named {name : List Char} {c : Char} (known : (name, c) ∈ namedCharacters) : StandsFor name c
  | decimal {number : List Char} {c : Char} (spelled : Spells 10 number c.toNat) :
      StandsFor ('#' :: number) c
  | hexadecimal {number : List Char} {c : Char} (spelled : Spells 16 number c.toNat) :
      StandsFor ('#' :: 'x' :: number) c

/-- The raw text stands for a text: each reference in it for a character, and each other character
for itself. -/
inductive Resolves : List Char → List Char → Prop where
  | nil : Resolves [] []
  | plain {c : Char} {raw text : List Char} (plain : c ≠ '&') (others : Resolves raw text) :
      Resolves (c :: raw) (c :: text)
  | reference {body raw text : List Char} {c : Char} (first : ';' ∉ body)
      (stands : StandsFor body c) (others : Resolves raw text) :
      Resolves ('&' :: body ++ ';' :: raw) (c :: text)

/-- Behind an ampersand, the text goes on as a reference does. -/
def BeginsReference (rest : List Char) : Prop :=
  ∃ body after c, rest = body ++ ';' :: after ∧ ';' ∉ body ∧ StandsFor body c

/-- The first ampersand that begins no reference stands between two parts of the raw text. -/
structure FirstUnresolved (raw before rest : List Char) : Prop where
  split : raw = before ++ '&' :: rest
  fails : ¬ BeginsReference rest
  first : ∀ earlier others, before = earlier ++ '&' :: others →
    BeginsReference (others ++ '&' :: rest)

variable {raw rest before after text body number : List Char} {c : Char} {fault : Escape.Fault}

/-! ### Bodies -/

theorem charOf?_eq_some_iff {code : Nat} : charOf? code = some c ↔ code = c.toNat := by
  by_cases valid : code.isValidChar
  · have number : (Char.ofNatAux code valid).toNat = code := rfl
    rw [charOf?, dif_pos valid, Option.some.injEq, ← Char.toNat_inj, number]
  · rw [charOf?, dif_neg valid]
    constructor
    · intro found
      cases found
    · rintro rfl
      exact absurd c.valid valid

/-- The number in a reference is that of the character that it stands for. -/
theorem bind_charOf?_eq_some_iff {radix : Nat} (small : radix ≤ 16) :
    (word32? radix number).bind charOf? = some c ↔ Spells radix number c.toNat := by
  have word : c.toNat < 2 ^ 32 := c.val.toNat_lt
  simp only [Option.bind_eq_some_iff, charOf?_eq_some_iff, exists_eq_right,
    word32?_eq_some_iff small, word, and_true]

theorem not_mem_of_spells {radix n : Nat} (small : radix ≤ 16) (unsigned : c ≠ '+')
    (other : ∀ value < 16, c ≠ Nat.digitChar value ∧ c ≠ (Nat.digitChar value).toUpper)
    (spelled : Spells radix number n) : c ∉ number := by
  intro inside
  rcases spelled.exists_of_mem inside with plus | ⟨value, digit⟩
  · exact unsigned plus
  · exact not_isDigit small other digit

theorem resolve?_decimal (other : 'x' ∉ number) :
    resolve? ('#' :: number) = (word32? 10 number).bind charOf? := by
  unfold resolve?
  split <;> simp_all

/-- A body is resolved to the character that it stands for. -/
theorem resolve?_eq_some_iff : resolve? body = some c ↔ StandsFor body c := by
  constructor
  · intro found
    unfold resolve? at found
    split at found
    case h_6 => exact .hexadecimal ((bind_charOf?_eq_some_iff (by decide)).1 found)
    case h_7 => exact .decimal ((bind_charOf?_eq_some_iff (by decide)).1 found)
    case h_8 => cases found
    all_goals
      cases found
      exact .named (by decide)
  · intro stands
    cases stands with
    | named known =>
      simp only [namedCharacters, List.mem_cons, List.not_mem_nil, or_false, Prod.mk.injEq] at known
      rcases known with ⟨rfl, rfl⟩ | ⟨rfl, rfl⟩ | ⟨rfl, rfl⟩ | ⟨rfl, rfl⟩ | ⟨rfl, rfl⟩ <;> rfl
    | hexadecimal spelled => exact (bind_charOf?_eq_some_iff (by decide)).2 spelled
    | decimal spelled =>
      rw [resolve?_decimal (not_mem_of_spells (by decide) (by decide) (by decide) spelled)]
      exact (bind_charOf?_eq_some_iff (by decide)).2 spelled

theorem StandsFor.not_mem (stands : StandsFor body c) : '&' ∉ body := by
  cases stands with
  | named known =>
    have plain : ∀ entry ∈ namedCharacters, '&' ∉ entry.1 := by decide
    exact plain _ known
  | decimal spelled =>
    have := not_mem_of_spells (c := '&') (by decide) (by decide) (by decide) spelled
    simpa using this
  | hexadecimal spelled =>
    have := not_mem_of_spells (c := '&') (by decide) (by decide) (by decide) spelled
    simpa using this

/-! ### Ampersands -/

/-- A reference ends in front of the next ampersand. -/
theorem beginsReference_append_iff :
    BeginsReference (before ++ '&' :: rest) ↔ BeginsReference before := by
  constructor
  · rintro ⟨body, after, c, split, first, stands⟩
    rcases compare_places split with ⟨-, other, -⟩ | ⟨inner, rfl, -⟩ | ⟨inner, rfl, -⟩
    · exact absurd other (by decide)
    · exact absurd List.mem_append_cons_self stands.not_mem
    · exact ⟨body, inner, c, rfl, first, stands⟩
  · rintro ⟨body, after, c, rfl, first, stands⟩
    exact ⟨body, after ++ '&' :: rest, c, by simp, first, stands⟩

/-- In a text that resolves, every ampersand begins a reference. -/
theorem Resolves.beginsReference (resolves : Resolves raw text) :
    ∀ before rest, raw = before ++ '&' :: rest → BeginsReference rest := by
  induction resolves with
  | nil => simp
  | plain plain _ ih =>
    intro before rest split
    cases before with
    | nil => exact absurd (List.cons.inj split).1 plain
    | cons d before => exact ih before rest (List.cons.inj split).2
  | @reference body raw text c first stands _ ih =>
    intro before rest split
    cases before with
    | nil =>
      obtain ⟨-, rfl⟩ := List.cons.inj split
      exact ⟨body, raw, c, rfl, first, stands⟩
    | cons d before =>
      -- the ampersand is not in the body, so it stands behind the semicolon
      rcases compare_places (List.cons.inj split).2 with ⟨-, other, -⟩ | ⟨inner, -, tail⟩ | ⟨inner, rfl, -⟩
      · exact absurd other (by decide)
      · exact ih inner rest tail
      · exact absurd List.mem_append_cons_self stands.not_mem

/-- A text resolves, or it does up to an ampersand that begins no reference. -/
theorem resolves_or_unresolved (raw : List Char) :
    (∃ text, Resolves raw text) ∨ ∃ before rest text, raw = before ++ '&' :: rest ∧
      Resolves before text ∧ ¬ BeginsReference rest := by
  induction hn : raw.length using Nat.strongRecOn generalizing raw with
  | ind n ih =>
    subst hn
    match raw with
    | [] => exact .inl ⟨[], .nil⟩
    | c :: others =>
      by_cases reference : c = '&'
      · subst reference
        by_cases begins : BeginsReference others
        · obtain ⟨body, after, c, rfl, first, stands⟩ := begins
          rcases ih after.length (by simp; omega) after rfl with
            ⟨text, resolves⟩ | ⟨before, rest, text, rfl, resolves, fails⟩
          · exact .inl ⟨c :: text, .reference first stands resolves⟩
          · exact .inr ⟨'&' :: body ++ ';' :: before, rest, c :: text, by simp,
              .reference first stands resolves, fails⟩
        · exact .inr ⟨[], others, [], rfl, .nil, begins⟩
      · rcases ih others.length (by simp) others rfl with
          ⟨text, resolves⟩ | ⟨before, rest, text, rfl, resolves, fails⟩
        · exact .inl ⟨c :: text, .plain reference resolves⟩
        · exact .inr ⟨c :: before, rest, c :: text, rfl, .plain reference resolves, fails⟩

/-- A text resolves if every ampersand in it begins a reference. -/
theorem exists_resolves_iff :
    (∃ text, Resolves raw text) ↔
      ∀ before rest, raw = before ++ '&' :: rest → BeginsReference rest := by
  constructor
  · rintro ⟨text, resolves⟩
    exact resolves.beginsReference
  · intro every
    rcases resolves_or_unresolved raw with resolves | ⟨before, rest, text, split, -, fails⟩
    · exact resolves
    · exact absurd (every before rest split) fails

/-- Up to the first ampersand that begins no reference, the text resolves. -/
theorem firstUnresolved_iff :
    FirstUnresolved raw before rest ↔ raw = before ++ '&' :: rest ∧ ¬ BeginsReference rest ∧
      ∃ text, Resolves before text := by
  constructor
  · rintro ⟨split, fails, first⟩
    refine ⟨split, fails, exists_resolves_iff.2 fun earlier others parts => ?_⟩
    exact beginsReference_append_iff.1 (first earlier others parts)
  · rintro ⟨split, fails, resolves⟩
    refine ⟨split, fails, fun earlier others parts => ?_⟩
    exact beginsReference_append_iff.2 (exists_resolves_iff.1 resolves earlier others parts)

/-- No ampersand in front of the first one that begins no reference is another one. -/
theorem FirstUnresolved.isPrefix {before' rest' : List Char}
    (unresolved : FirstUnresolved raw before rest) (split : raw = before' ++ '&' :: rest')
    (fails : ¬ BeginsReference rest') : before <+: before' := by
  rcases compare_places (unresolved.split.symm.trans split) with
    ⟨rfl, -, -⟩ | ⟨inner, rfl, -⟩ | ⟨inner, rfl, rfl⟩
  · exact List.prefix_rfl
  · exact List.prefix_append _ _
  · exact absurd (unresolved.first _ _ rfl) fails

/-! ### Resolving -/

/-- What stands in front of a text is resolved on its own. -/
theorem resolveAll_append (resolves : Resolves before text) (rest : List Char) :
    resolveAll (before ++ rest) = (resolveAll rest).map (text ++ ·) := by
  induction resolves with
  | nil =>
    rw [List.nil_append]
    cases resolveAll rest <;> rfl
  | plain plain _ ih =>
    rw [List.cons_append, resolveAll_plain plain, ih]
    cases resolveAll rest <;> rfl
  | @reference body raw text c first stands _ ih =>
    have cut : cutAtChar? ';' (body ++ ';' :: (raw ++ rest)) = some (body, raw ++ rest) :=
      cutAtChar?_eq_some_iff.2 ⟨rfl, first⟩
    have whole : '&' :: body ++ ';' :: raw ++ rest = '&' :: (body ++ ';' :: (raw ++ rest)) := by
      simp
    rw [whole, resolveAll_reference cut (resolve?_eq_some_iff.2 stands), ih]
    cases resolveAll rest <;> rfl

/-- An ampersand that begins no reference is reported with the text up to the next semicolon. -/
theorem resolveAll_of_not_beginsReference (fails : ¬ BeginsReference rest) :
    resolveAll ('&' :: rest) = .error (.reference ('&' :: rest) (rest.takeWhile (· != ';'))) := by
  rw [resolveAll, if_pos rfl]
  split
  · rename_i uncut
    rw [List.takeWhile_eq_self_iff.2 (all_ne_of_not_mem (cutAtChar?_eq_none_iff.1 uncut))]
  · rename_i body after cut
    obtain ⟨split, first⟩ := cutAtChar?_eq_some_iff.1 cut
    dsimp only
    cases resolved : resolve? body with
    | some c => exact absurd ⟨body, after, c, split, first, resolve?_eq_some_iff.1 resolved⟩ fails
    | none => rw [split, (span_of_not_mem first).1]

theorem resolveAll_eq_ok_iff : resolveAll raw = .ok text ↔ Resolves raw text := by
  have done {raw text : List Char} (resolves : Resolves raw text) : resolveAll raw = .ok text := by
    have := resolveAll_append resolves []
    rwa [List.append_nil, resolveAll, Except.map, List.append_nil] at this
  constructor
  · intro run
    rcases resolves_or_unresolved raw with
      ⟨text', resolves⟩ | ⟨before, rest, text', rfl, resolves, fails⟩
    · rw [done resolves] at run
      exact Except.ok.inj run ▸ resolves
    · rw [resolveAll_append resolves, resolveAll_of_not_beginsReference fails] at run
      cases run
  · exact done

theorem resolveAll_eq_error_iff :
    resolveAll raw = .error fault ↔ ∃ before rest, FirstUnresolved raw before rest ∧
      fault = .reference ('&' :: rest) (rest.takeWhile (· != ';')) := by
  simp only [firstUnresolved_iff]
  constructor
  · intro run
    rcases resolves_or_unresolved raw with
      ⟨text, resolves⟩ | ⟨before, rest, text, split, resolves, fails⟩
    · rw [resolveAll_eq_ok_iff.2 resolves] at run
      cases run
    · refine ⟨before, rest, ⟨split, fails, text, resolves⟩, ?_⟩
      rw [split, resolveAll_append resolves, resolveAll_of_not_beginsReference fails] at run
      exact (Except.error.inj run).symm
  · rintro ⟨before, rest, ⟨rfl, fails, text, resolves⟩, rfl⟩
    rw [resolveAll_append resolves, resolveAll_of_not_beginsReference fails]
    rfl

theorem exists_resolves_of_isOk (resolved : (Escape.resolve raw).isOk = true) :
    ∃ text, Resolves raw text := by
  unfold Escape.resolve at resolved
  split at resolved
  · cases resolved
  · cases run : resolveAll raw with
    | ok text => exact ⟨text, resolveAll_eq_ok_iff.1 run⟩
    | error fault =>
      rw [run] at resolved
      cases resolved

/-! ### The whole -/

theorem unescape_of_angle {base : Nat} (first : '<' ∉ before) :
    unescape base (before ++ '<' :: after) =
      .error (.syntaxError (base + Utf8.size before) .angleInText) := by
  rw [unescape, Escape.resolve, if_pos List.mem_append_cons_self,
    (span_of_not_mem first).2, Except.mapError, Fault.error, Utf8.size_append, Nat.add_sub_cancel]

theorem unescape_of_plain {base : Nat} (plain : '<' ∉ raw) :
    unescape base raw = (resolveAll raw).mapError (Escape.Fault.error base raw) := by
  rw [unescape, Escape.resolve, if_neg plain]

/-- A fault is placed where the ampersand stands. -/
theorem error_of_firstUnresolved {base : Nat} {entity : List Char}
    (unresolved : FirstUnresolved raw before rest) :
    Escape.Fault.error base raw (.reference ('&' :: rest) entity) =
      .invalidEntity (base + Utf8.size before) entity := by
  rw [Fault.error, unresolved.split, Utf8.size_append, Nat.add_sub_cancel]

theorem unescape_eq_text_iff {base : Nat} :
    unescape base raw = .ok text ↔ '<' ∉ raw ∧ Resolves raw text := by
  by_cases angle : '<' ∈ raw
  · obtain ⟨before, after, rfl, first⟩ := List.eq_append_cons_of_mem angle
    rw [unescape_of_angle first]
    simp
  · rw [unescape_of_plain angle, ← resolveAll_eq_ok_iff]
    cases resolveAll raw <;> simp [Except.mapError, angle]

theorem unescape_eq_error_iff {base : Nat} {e : Error} :
    unescape base raw = .error e ↔
      (∃ before after, raw = before ++ '<' :: after ∧ '<' ∉ before ∧
        e = .syntaxError (base + Utf8.size before) .angleInText) ∨
      '<' ∉ raw ∧ ∃ before rest, FirstUnresolved raw before rest ∧
        e = .invalidEntity (base + Utf8.size before) (rest.takeWhile (· != ';')) := by
  constructor
  · intro failed
    by_cases angle : '<' ∈ raw
    · obtain ⟨before, after, rfl, first⟩ := List.eq_append_cons_of_mem angle
      rw [unescape_of_angle first] at failed
      exact .inl ⟨before, after, rfl, first, (Except.error.inj failed).symm⟩
    · rw [unescape_of_plain angle] at failed
      cases run : resolveAll raw with
      | ok text =>
        rw [run] at failed
        cases failed
      | error fault =>
        rw [run] at failed
        obtain ⟨before, rest, unresolved, rfl⟩ := resolveAll_eq_error_iff.1 run
        refine .inr ⟨angle, before, rest, unresolved, ?_⟩
        rw [← error_of_firstUnresolved unresolved]
        exact (Except.error.inj failed).symm
  · rintro (⟨before, after, rfl, first, rfl⟩ | ⟨plain, before, rest, unresolved, rfl⟩)
    · exact unescape_of_angle first
    · rw [unescape_of_plain plain, resolveAll_eq_error_iff.2 ⟨before, rest, unresolved, rfl⟩,
        ← error_of_firstUnresolved unresolved]
      rfl

/-- An error about data without brackets is about the first ampersand in it that begins no
reference. -/
theorem firstUnresolved_of_unescape {base : Nat} {e : Error} (plain : '<' ∉ raw)
    (failed : unescape base raw = .error e) :
    ∃ before rest, FirstUnresolved raw before rest ∧
      e = .invalidEntity (base + Utf8.size before) (rest.takeWhile (· != ';')) := by
  rcases unescape_eq_error_iff.1 failed with ⟨_, _, rfl, -⟩ | ⟨-, unresolved⟩
  · exact absurd List.mem_append_cons_self plain
  · exact unresolved

/-- Character data resolves exactly if no bracket stands in it and every ampersand begins a
reference, to what it stands for. Otherwise the first bracket is reported, and without one the first
ampersand that begins no reference. -/
theorem unescape_decides (base : Nat) (raw : List Char) :
    (∀ text, unescape base raw = .ok text ↔ '<' ∉ raw ∧ Resolves raw text) ∧
      ((∃ text, Resolves raw text) ↔
        ∀ before rest, raw = before ++ '&' :: rest → BeginsReference rest) ∧
      ∀ e, unescape base raw = .error e ↔
        (∃ before after, raw = before ++ '<' :: after ∧ '<' ∉ before ∧
          e = .syntaxError (base + Utf8.size before) .angleInText) ∨
        '<' ∉ raw ∧ ∃ before rest, FirstUnresolved raw before rest ∧
          e = .invalidEntity (base + Utf8.size before) (rest.takeWhile (· != ';')) :=
  ⟨fun _ => unescape_eq_text_iff, exists_resolves_iff, fun _ => unescape_eq_error_iff⟩

end SectionStore.Markup
