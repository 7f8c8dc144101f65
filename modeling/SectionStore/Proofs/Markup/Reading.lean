import SectionStore.Markup.Reader
import SectionStore.Proofs.Markup.TokenForm

/-!
# Texts as sequences of tokens

`Reader.Reads r lexemes r'` says that reading token after token from `r` yields `lexemes` and comes
to `r'`. The lexemes spell the text between the two readers (`Reads.rest_eq`), and two readings
that begin at one reader go the same way (`Reads.prefix_of_ended`).

One step is decided by the scanner and by the open elements alone (`nextScanned_eq_some_iff`):
`Token.Moves` is what a token does to them. Everything about sequences is derived from this, so no
later proof looks into a step.
-/

namespace SectionStore.Markup

/-- A token with the characters that it is written with. -/
structure Lexeme where
  token : Token
  text : List Char
  deriving DecidableEq, Repr

/-- The characters that the lexemes are written with. -/
def spell (lexemes : List Lexeme) : List Char :=
  lexemes.flatMap (·.text)

@[simp] theorem spell_nil : spell [] = [] := rfl

@[simp] theorem spell_cons (l : Lexeme) (lexemes : List Lexeme) :
    spell (l :: lexemes) = l.text ++ spell lexemes := rfl

@[simp] theorem spell_append (lexemes more : List Lexeme) :
    spell (lexemes ++ more) = spell lexemes ++ spell more := by
  simp [spell]

/-- All the tokens are of one kind. -/
def AllOf (kind : Token → Bool) (lexemes : List Lexeme) : Prop :=
  ∀ l ∈ lexemes, kind l.token = true

theorem allOf_nil (kind : Token → Bool) : AllOf kind [] :=
  List.forall_mem_nil _

theorem allOf_cons {kind : Token → Bool} {l : Lexeme} {lexemes : List Lexeme} :
    AllOf kind (l :: lexemes) ↔ kind l.token = true ∧ AllOf kind lexemes :=
  List.forall_mem_cons

theorem allOf_append {kind : Token → Bool} {lexemes more : List Lexeme} :
    AllOf kind (lexemes ++ more) ↔ AllOf kind lexemes ∧ AllOf kind more :=
  List.forall_mem_append

/-- A run of tokens of one kind ends at the first token of another kind. -/
theorem AllOf.eq_of_isPrefix {kind : Token → Bool} {xs ys rest others : List Lexeme} {x y : Lexeme}
    (all : AllOf kind xs) (all' : AllOf kind ys) (other : kind x.token = false)
    (other' : kind y.token = false) (along : xs ++ x :: rest <+: ys ++ y :: others) : xs = ys := by
  induction xs generalizing ys with
  | nil =>
    cases ys with
    | nil => rfl
    | cons y' ys =>
      obtain ⟨rfl, -⟩ := List.cons_prefix_cons.1 along
      rw [(allOf_cons.1 all').1] at other
      cases other
  | cons x' xs ih =>
    cases ys with
    | nil =>
      obtain ⟨rfl, -⟩ := List.cons_prefix_cons.1 along
      rw [(allOf_cons.1 all).1] at other'
      cases other'
    | cons y' ys =>
      obtain ⟨rfl, along'⟩ := List.cons_prefix_cons.1 along
      rw [ih (allOf_cons.1 all).2 (allOf_cons.1 all').2 along']

/-- Does the token leave the open elements as they are? -/
def Token.isLeaf : Token → Bool
  | .opening tag => tag.selfClosing
  | .closing _ => false
  | _ => true

/-- What a token does to the names of the open elements. -/
inductive Token.Moves : Token → List (List Char) → List (List Char) → Prop where
  | leaf {token : Token} {opened : List (List Char)} (leaf : token.isLeaf = true) :
      Moves token opened opened
  | opening {tag : StartTag} {opened : List (List Char)} (opens : tag.selfClosing = false) :
      Moves (.opening tag) opened (tag.name :: opened)
  | closing {name : List Char} {outer : List (List Char)} :
      Moves (.closing name) (name :: outer) outer

theorem Token.Moves.of_leaf {token : Token} {before after : List (List Char)}
    (moves : token.Moves before after) (leaf : token.isLeaf = true) : after = before := by
  cases moves with
  | leaf => rfl
  | opening opens => simp [Token.isLeaf, opens] at leaf
  | closing => cases leaf

theorem Token.Moves.of_opening {tag : StartTag} {before after : List (List Char)}
    (moves : Token.Moves (.opening tag) before after) (opens : tag.selfClosing = false) :
    after = tag.name :: before := by
  cases moves with
  | leaf leaf => simp [Token.isLeaf, opens] at leaf
  | opening => rfl

theorem Token.Moves.of_closing {name : List Char} {before after : List (List Char)}
    (moves : Token.Moves (.closing name) before after) : before = name :: after := by
  cases moves with
  | leaf leaf => cases leaf
  | closing => rfl

/-- A token does the same with more elements open around. -/
theorem Token.Moves.append {token : Token} {before after : List (List Char)}
    (moves : token.Moves before after) (outer : List (List Char)) :
    token.Moves (before ++ outer) (after ++ outer) := by
  cases moves with
  | leaf leaf => exact .leaf leaf
  | opening opens => exact .opening opens
  | closing => exact .closing

namespace Reader

/-! ### One step -/

/-- A step passes the token that is scanned, which moves the open elements. -/
theorem pass_of_step {r r' : Reader} {scanned : Scanned Token}
    (step : nextScanned r = .ok (some scanned) r') :
    scanned.value.Moves r.opened r'.opened ∧ r' = r.pass scanned r'.opened := by
  obtain ⟨nonempty, found, -⟩ := nextScanned_eq_some step
  unfold nextScanned at step
  simp only [if_neg nonempty, found] at step
  split at step
  · rename_i tag kind
    cases step
    refine ⟨?_, rfl⟩
    rw [kind]
    cases closes : tag.selfClosing with
    | true => exact .leaf closes
    | false => exact .opening closes
  · rename_i name kind
    split at step
    · cases step
    · rename_i innermost outer opened
      split at step
      · rename_i same
        cases step
        rw [kind, opened, same]
        exact ⟨.closing, rfl⟩
      · cases step
  · rename_i notOpening notClosing
    cases step
    refine ⟨.leaf ?_, rfl⟩
    cases kind : scanned.value with
    | opening tag => exact absurd kind (notOpening tag)
    | closing name => exact absurd kind (notClosing name)
    | _ => rfl

theorem step_of_moves {r : Reader} {scanned : Scanned Token} {opened : List (List Char)}
    (nonempty : r.rest ≠ []) (found : scan r.rest = .ok scanned)
    (moves : scanned.value.Moves r.opened opened) :
    nextScanned r = .ok (some scanned) (r.pass scanned opened) := by
  unfold nextScanned
  simp only [if_neg nonempty, found]
  cases kind : scanned.value with
  | opening tag =>
    rw [kind] at moves
    cases closes : tag.selfClosing with
    | true => simp [moves.of_leaf closes, closes]
    | false => simp [moves.of_opening closes, closes]
  | closing name =>
    rw [kind] at moves
    simp only [moves.of_closing, if_true]
  | _ =>
    rw [kind] at moves
    simp only [moves.of_leaf rfl]

/-- A step is a scan, together with what the token does to the open elements. -/
theorem nextScanned_eq_some_iff {r r' : Reader} {scanned : Scanned Token} :
    nextScanned r = .ok (some scanned) r' ↔
      r.rest ≠ [] ∧ scan r.rest = .ok scanned ∧ scanned.value.Moves r.opened r'.opened ∧
        r' = r.pass scanned r'.opened := by
  constructor
  · intro step
    obtain ⟨nonempty, found, -⟩ := nextScanned_eq_some step
    exact ⟨nonempty, found, pass_of_step step⟩
  · rintro ⟨nonempty, found, moves, passed⟩
    rw [passed]
    exact step_of_moves nonempty found moves

theorem moves_of_step {r r' : Reader} {scanned : Scanned Token}
    (step : nextScanned r = .ok (some scanned) r') :
    scanned.value.Moves r.opened r'.opened :=
  (pass_of_step step).1

/-! ### Sequences of steps -/

/-- Reading on from `r` yields `lexemes` and comes to `r'`. -/
inductive Reads : Reader → List Lexeme → Reader → Prop where
  | nil (r : Reader) : Reads r [] r
  | cons {r r₁ r' : Reader} {scanned : Scanned Token} {lexemes : List Lexeme}
      (step : nextScanned r = .ok (some scanned) r₁) (others : Reads r₁ lexemes r') :
      Reads r (⟨scanned.value, scanned.lexeme⟩ :: lexemes) r'

variable {r r₁ r₂ r' : Reader} {l : Lexeme} {lexemes more : List Lexeme}

@[simp] theorem reads_nil_iff : Reads r [] r' ↔ r' = r := by
  constructor
  · intro reads
    cases reads
    rfl
  · rintro rfl
    exact .nil _

theorem reads_cons_iff : Reads r (l :: lexemes) r' ↔
    ∃ r₁, nextScanned r = .ok (some ⟨l.token, l.text, r₁.rest⟩) r₁ ∧ Reads r₁ lexemes r' := by
  constructor
  · intro reads
    cases reads with
    | @cons _ r₁ _ scanned _ step others =>
      refine ⟨r₁, ?_, others⟩
      rw [(nextScanned_eq_some step).2.2.1]
      exact step
  · rintro ⟨r₁, step, others⟩
    exact .cons step others

theorem Reads.single {scanned : Scanned Token} (step : nextScanned r = .ok (some scanned) r₁) :
    Reads r [⟨scanned.value, scanned.lexeme⟩] r₁ :=
  .cons step (.nil _)

theorem Reads.append (first : Reads r lexemes r₁) (others : Reads r₁ more r') :
    Reads r (lexemes ++ more) r' := by
  induction first with
  | nil => exact others
  | cons step _ ih => exact .cons step (ih others)

theorem reads_append_iff : Reads r (lexemes ++ more) r' ↔
    ∃ r₁, Reads r lexemes r₁ ∧ Reads r₁ more r' := by
  constructor
  · intro reads
    induction lexemes generalizing r with
    | nil => exact ⟨r, .nil r, reads⟩
    | cons l lexemes ih =>
      obtain ⟨r₁, step, others⟩ := reads_cons_iff.1 reads
      obtain ⟨r₂, first, second⟩ := ih others
      exact ⟨r₂, .cons step first, second⟩
  · rintro ⟨r₁, first, others⟩
    exact first.append others

theorem reads_concat_iff : Reads r (lexemes ++ [l]) r' ↔
    ∃ r₁, Reads r lexemes r₁ ∧ nextScanned r₁ = .ok (some ⟨l.token, l.text, r'.rest⟩) r' := by
  constructor
  · intro reads
    obtain ⟨r₁, first, last⟩ := reads_append_iff.1 reads
    obtain ⟨r₂, step, rest⟩ := reads_cons_iff.1 last
    obtain rfl := reads_nil_iff.1 rest
    exact ⟨r₁, first, step⟩
  · rintro ⟨r₁, first, step⟩
    exact first.append (.single step)

/-- The lexemes spell what is read. -/
theorem Reads.rest_eq (reads : Reads r lexemes r') : r.rest = spell lexemes ++ r'.rest := by
  induction reads with
  | nil r => rfl
  | cons step _ ih =>
    obtain ⟨nonempty, found, hrest, -, -⟩ := nextScanned_eq_some step
    rw [(scan_split nonempty found).1, ← hrest, ih, spell_cons, List.append_assoc]

theorem Reads.offset_eq (reads : Reads r lexemes r') :
    r'.offset = r.offset + Utf8.size (spell lexemes) := by
  induction reads with
  | nil r => rfl
  | cons step _ ih =>
    obtain ⟨-, -, -, stop, -⟩ := nextScanned_eq_some step
    rw [ih, stop, spell_cons, Utf8.size_append, Nat.add_assoc]

/-- Each lexeme is a way to write its token. -/
theorem Reads.form_of_mem (reads : Reads r lexemes r') (hl : l ∈ lexemes) :
    TokenForm l.token l.text := by
  induction reads with
  | nil r => cases hl
  | cons step _ ih =>
    rcases List.mem_cons.1 hl with rfl | hl
    · obtain ⟨nonempty, found, -⟩ := nextScanned_eq_some step
      exact (form_of_scan nonempty found).1
    · exact ih hl

/-- Reading is a function of the reader: two readings go the same way as far as both go. -/
theorem Reads.prefix_or_isPrefix (first : Reads r lexemes r₁) (second : Reads r more r₂) :
    (∃ others, more = lexemes ++ others ∧ Reads r₁ others r₂) ∨
      ∃ others, lexemes = more ++ others ∧ Reads r₂ others r₁ := by
  induction first generalizing more with
  | nil r => exact .inl ⟨more, rfl, second⟩
  | cons step others ih =>
    cases second with
    | nil => exact .inr ⟨_, rfl, .cons step others⟩
    | cons step' others' =>
      rw [step] at step'
      cases step'
      rcases ih others' with ⟨tail, rfl, reads⟩ | ⟨tail, rfl, reads⟩
      · exact .inl ⟨tail, rfl, reads⟩
      · exact .inr ⟨tail, rfl, reads⟩

/-- Behind the end of the text nothing is read. -/
theorem Reads.of_ended (reads : Reads r lexemes r') (ended : r.rest = []) :
    lexemes = [] ∧ r' = r := by
  cases reads with
  | nil => exact ⟨rfl, rfl⟩
  | cons step => exact absurd ended (nextScanned_eq_some step).1

/-- What is read up to the end of the text begins with whatever else is read. -/
theorem Reads.prefix_of_ended (whole : Reads r lexemes r') (ended : r'.rest = [])
    (part : Reads r more r₁) : more <+: lexemes := by
  rcases part.prefix_or_isPrefix whole with ⟨others, rfl, -⟩ | ⟨others, rfl, reads⟩
  · exact List.prefix_append _ _
  · obtain ⟨rfl, -⟩ := reads.of_ended ended
    exact ⟨[], by simp only [List.append_nil]⟩

/-! ### Loops that read over tokens of one kind -/

/-- What a token of the kind does not change, a sequence of them does not change. -/
theorem eq_of_allOf {α : Type} {kind : Token → Bool} {f : Reader → α}
    (same : ∀ {r r₁ : Reader} {scanned : Scanned Token},
      nextScanned r = .ok (some scanned) r₁ → kind scanned.value = true → f r = f r₁)
    (all : AllOf kind lexemes) (reads : Reads r lexemes r') : f r = f r' := by
  induction lexemes generalizing r with
  | nil => rw [reads_nil_iff.1 reads]
  | cons l lexemes ih =>
    obtain ⟨r₁, step, others⟩ := reads_cons_iff.1 reads
    obtain ⟨first, rest⟩ := allOf_cons.1 all
    rw [same step first, ih rest others]

/-- A loop that at each reader stops or reads over one token of the kind stops behind a sequence of
them. -/
theorem exists_allOf_of_loop {kind : Token → Bool} (Goes : Reader → Prop) {Stops : Reader → Prop}
    (once : ∀ {r : Reader}, Goes r → Stops r ∨ ∃ scanned r₁,
      nextScanned r = .ok (some scanned) r₁ ∧ kind scanned.value = true ∧ Goes r₁)
    (goes : Goes r) : ∃ gap r₁, AllOf kind gap ∧ Reads r gap r₁ ∧ Stops r₁ := by
  induction hn : r.left using Nat.strongRecOn generalizing r with
  | ind n ih =>
    subst hn
    rcases once goes with stops | ⟨scanned, r₁, step, first, goes⟩
    · exact ⟨[], r, allOf_nil kind, .nil r, stops⟩
    · obtain ⟨gap, r₂, rest, reads, stops⟩ := ih _ (left_lt step) goes rfl
      exact ⟨⟨scanned.value, scanned.lexeme⟩ :: gap, r₂, allOf_cons.2 ⟨first, rest⟩,
        .cons step reads, stops⟩

end Reader

end SectionStore.Markup
