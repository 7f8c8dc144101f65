import SectionStore.Proofs.Markup.Context
import SectionStore.Proofs.Markup.Reading

/-!
# Elements

The grammar of elements over sequences of tokens, apart from the reader. `Content` is what may stand
between the tags of an element: every opening tag in it has its closing tag in it too. `Element` is
one element, and `Child` an element with what may stand before it.

The reader finds a child exactly where the tokens go on with one (`child_eq_ok_iff`). Its loop knows
the number of open elements only; `Unwinds` is what the loop has left to read while `names` are open
within the element, and an induction on the loop carries it.
-/

namespace SectionStore.Markup

/-- May the token stand between the children of an element? -/
def Token.isMisc : Token → Bool
  | .declaration => true
  | .comment => true
  | .text content => isBlank content
  | _ => false

theorem Token.isLeaf_of_isMisc {token : Token} (misc : token.isMisc = true) :
    token.isLeaf = true := by
  cases token <;> first | rfl | cases misc

theorem Token.not_isClosing_of_isLeaf {token : Token} (leaf : token.isLeaf = true) :
    token.isClosing = false := by
  cases token <;> first | rfl | cases leaf

/-- What may stand between the children of an element: comments, declarations and blank text. -/
abbrev Misc (lexemes : List Lexeme) : Prop :=
  AllOf Token.isMisc lexemes

/-- Tokens in which every opening tag has its closing tag and every closing tag its opening tag. -/
inductive Content : List Lexeme → Prop where
  | nil : Content []
  | leaf {l : Lexeme} {others : List Lexeme} (leaf : l.token.isLeaf = true)
      (rest : Content others) : Content (l :: others)
  | element {tag : StartTag} {opening closing : List Char} {inner others : List Lexeme}
      (opens : tag.selfClosing = false) (inside : Content inner) (rest : Content others) :
      Content (⟨.opening tag, opening⟩ :: inner ++ ⟨.closing tag.name, closing⟩ :: others)

/-- An element with its tag and its content as it is written. -/
inductive Element : StartTag → List Char → List Lexeme → Prop where
  | empty {tag : StartTag} {opening : List Char} (closes : tag.selfClosing = true) :
      Element tag [] [⟨.opening tag, opening⟩]
  | filled {tag : StartTag} {opening closing : List Char} {inner : List Lexeme}
      (opens : tag.selfClosing = false) (inside : Content inner) :
      Element tag (spell inner) (⟨.opening tag, opening⟩ :: inner ++ [⟨.closing tag.name, closing⟩])

/-- An element among the children of another. -/
inductive Child : StartTag → List Char → List Lexeme → Prop where
  | mk {tag : StartTag} {content : List Char} {gap lexemes : List Lexeme} (misc : Misc gap)
      (element : Element tag content lexemes) : Child tag content (gap ++ lexemes)

theorem content_of_misc {gap : List Lexeme} (misc : Misc gap) : Content gap := by
  induction gap with
  | nil => exact .nil
  | cons l gap ih =>
    obtain ⟨first, rest⟩ := allOf_cons.1 misc
    exact .leaf (Token.isLeaf_of_isMisc first) (ih rest)

theorem Content.append {lexemes more : List Lexeme} (first : Content lexemes)
    (second : Content more) : Content (lexemes ++ more) := by
  induction first with
  | nil => exact second
  | leaf leaf _ ih => exact .leaf leaf ih
  | element opens inside _ _ ih =>
    rw [List.cons_append, List.cons_append, List.append_assoc, List.cons_append]
    exact .element opens inside ih

theorem Element.content {tag : StartTag} {content : List Char} {lexemes : List Lexeme}
    (element : Element tag content lexemes) : Content lexemes := by
  cases element with
  | empty closes => exact .leaf closes .nil
  | filled opens inside => exact .element opens inside .nil

/-- An element begins with its opening tag. -/
theorem Element.eq_cons {tag : StartTag} {content : List Char} {lexemes : List Lexeme}
    (element : Element tag content lexemes) :
    ∃ opening others, lexemes = ⟨.opening tag, opening⟩ :: others := by
  cases element with
  | empty => exact ⟨_, _, rfl⟩
  | filled => exact ⟨_, _, rfl⟩

theorem Element.of_selfClosing {tag : StartTag} {content : List Char} {lexemes : List Lexeme}
    (element : Element tag content lexemes) (closes : tag.selfClosing = true) :
    content = [] ∧ ∃ opening, lexemes = [⟨.opening tag, opening⟩] := by
  cases element with
  | empty => exact ⟨rfl, _, rfl⟩
  | filled opens =>
    rw [closes] at opens
    cases opens

theorem Element.of_opens {tag : StartTag} {content : List Char} {lexemes : List Lexeme}
    (element : Element tag content lexemes) (opens : tag.selfClosing = false) :
    ∃ opening inner closing, Content inner ∧ content = spell inner ∧
      lexemes = ⟨.opening tag, opening⟩ :: inner ++ [⟨.closing tag.name, closing⟩] := by
  cases element with
  | empty closes =>
    rw [opens] at closes
    cases closes
  | filled _ inside => exact ⟨_, _, _, inside, rfl, rfl⟩

theorem Child.content {tag : StartTag} {content : List Char} {lexemes : List Lexeme}
    (child : Child tag content lexemes) : Content lexemes := by
  cases child with
  | mk misc element => exact (content_of_misc misc).append element.content

theorem Content.not_closing_cons {name text : List Char} {others : List Lexeme} :
    ¬ Content (⟨.closing name, text⟩ :: others) := by
  intro content
  cases content with
  | leaf leaf => cases leaf

/-- Content ends before the first closing tag that closes nothing in it, so of two contents with a
closing tag behind them neither goes on where the other ends. -/
theorem Content.eq_of_isPrefix {xs ys others : List Lexeme} {name name' text text' : List Char}
    (first : Content xs) (second : Content ys)
    (along : xs ++ [⟨.closing name, text⟩] <+: ys ++ ⟨.closing name', text'⟩ :: others) :
    xs = ys := by
  induction first generalizing ys others name name' text text' with
  | nil =>
    cases ys with
    | nil => rfl
    | cons y ys =>
      obtain ⟨rfl, -⟩ := List.cons_prefix_cons.1 along
      exact absurd second not_closing_cons
  | leaf leaf rest ih =>
    cases second with
    | nil =>
      obtain ⟨rfl, -⟩ := List.cons_prefix_cons.1 along
      cases leaf
    | leaf leaf' rest' =>
      obtain ⟨rfl, along'⟩ := List.cons_prefix_cons.1 along
      rw [ih rest' along']
    | element opens =>
      obtain ⟨rfl, -⟩ := List.cons_prefix_cons.1 along
      simp [Token.isLeaf, opens] at leaf
  | @element tag opening closing inner after opens inside rest ih ih' =>
    simp only [List.cons_append, List.append_assoc] at along
    cases second with
    | nil =>
      obtain ⟨same, -⟩ := List.cons_prefix_cons.1 along
      cases same
    | leaf leaf' =>
      obtain ⟨rfl, -⟩ := List.cons_prefix_cons.1 along
      simp [Token.isLeaf, opens] at leaf'
    | @element tag' opening' closing' inner' after' opens' inside' rest' =>
      simp only [List.cons_append, List.append_assoc] at along
      obtain ⟨same, along⟩ := List.cons_prefix_cons.1 along
      -- the inner parts are equal, so the closing tags meet, and what follows them compares again
      have upTo : inner ++ [⟨.closing tag.name, closing⟩] <+: inner' ++
          ⟨.closing tag'.name, closing'⟩ :: (after' ++ ⟨.closing name', text'⟩ :: others) :=
        List.IsPrefix.trans ⟨after ++ [⟨.closing name, text⟩], by simp⟩ along
      obtain rfl := ih inside' upTo
      have along := (List.prefix_append_right_inj inner).1 along
      obtain ⟨same', along⟩ := List.cons_prefix_cons.1 along
      rw [ih' rest' along, same, same']

namespace Reader

variable {r r₁ r' : Reader} {tag : StartTag} {content name : List Char}
  {gap inner lexemes : List Lexeme} {outer : Nat}

/-! ### Reading content -/

/-- Content leaves the open elements as it found them. -/
theorem opened_of_content (content : Content inner) (reads : Reads r inner r') :
    r'.opened = r.opened := by
  induction content generalizing r r' with
  | nil => rw [reads_nil_iff.1 reads]
  | leaf leaf rest ih =>
    obtain ⟨r₁, step, others⟩ := reads_cons_iff.1 reads
    rw [ih others, (moves_of_step step).of_leaf leaf]
  | element opens inside rest ih ih' =>
    obtain ⟨r₁, step, reads⟩ := reads_cons_iff.1 reads
    obtain ⟨r₂, within, reads⟩ := reads_append_iff.1 reads
    obtain ⟨r₃, step', others⟩ := reads_cons_iff.1 reads
    have closed := (moves_of_step step').of_closing
    rw [ih within, (moves_of_step step).of_opening opens] at closed
    rw [ih' others, (List.cons.inj closed).2]

/-- The loop reads over content, whatever it reads behind it. -/
theorem contentDownTo_of_content {rest : List Char} (content : Content inner)
    (reads : Reads r inner r₁) (deep : outer < r.depth)
    (behind : contentDownTo outer name r₁ = .ok rest r') :
    contentDownTo outer name r = .ok (spell inner ++ rest) r' := by
  induction content generalizing r rest r₁ with
  | nil =>
    rw [reads_nil_iff.1 reads] at behind
    exact behind
  | @leaf l others leaf content ih =>
    obtain ⟨r₂, step, reads⟩ := reads_cons_iff.1 reads
    have same := (moves_of_step step).of_leaf leaf
    have still := Token.not_isClosing_of_isLeaf leaf
    have deep' : outer < r₂.depth := by
      rw [depth, same]
      exact deep
    rw [contentDownTo_of_step step, if_neg (by simp [still]), ih reads deep' behind, spell_cons,
      List.append_assoc]
  | @element tag opening closing inner others opens inside content ih ih' =>
    obtain ⟨r₂, step, reads⟩ := reads_cons_iff.1 reads
    obtain ⟨r₃, within, reads⟩ := reads_append_iff.1 reads
    obtain ⟨r₄, step', reads⟩ := reads_cons_iff.1 reads
    have opened : r₂.opened = tag.name :: r.opened := (moves_of_step step).of_opening opens
    have closed : r₄.opened = r.opened := by
      have closed := (moves_of_step step').of_closing
      rw [opened_of_content inside within, opened] at closed
      exact (List.cons.inj closed).2.symm
    have same : r₄.depth = r.depth := congrArg List.length closed
    have deeper : outer < r₂.depth := by
      rw [depth, opened, List.length_cons]
      exact Nat.lt_succ_of_lt deep
    have last := ih' reads (same ▸ deep) behind
    have middle : contentDownTo outer name r₃ = .ok (closing ++ (spell others ++ rest)) r' := by
      rw [contentDownTo_of_step step', if_neg (by omega), last]
    rw [contentDownTo_of_step step, if_neg (by simp [Token.isClosing]), ih within deeper middle]
    simp

/-- What is left of an element while the elements `names` are open within it: content, and the
closing tag of the innermost of them, and so on, up to content. -/
def Unwinds : List (List Char) → List Lexeme → Prop
  | [], lexemes => Content lexemes
  | name :: names, lexemes => ∃ inner text others, Content inner ∧ Unwinds names others ∧
      lexemes = inner ++ ⟨.closing name, text⟩ :: others

theorem Unwinds.cons_leaf {l : Lexeme} {names : List (List Char)}
    (unwinds : Unwinds names lexemes) (leaf : l.token.isLeaf = true) :
    Unwinds names (l :: lexemes) := by
  cases names with
  | nil => exact Content.leaf leaf unwinds
  | cons name names =>
    obtain ⟨inner, text, others, inside, rest, rfl⟩ := unwinds
    exact ⟨l :: inner, text, others, .leaf leaf inside, rest, rfl⟩

theorem Unwinds.cons_opening {text : List Char} {names : List (List Char)}
    (unwinds : Unwinds (tag.name :: names) lexemes) (opens : tag.selfClosing = false) :
    Unwinds names (⟨.opening tag, text⟩ :: lexemes) := by
  obtain ⟨inner, closing, others, inside, rest, rfl⟩ := unwinds
  cases names with
  | nil => exact .element opens inside rest
  | cons name names =>
    obtain ⟨inner', text', others', inside', rest', rfl⟩ := rest
    refine ⟨⟨.opening tag, text⟩ :: inner ++ ⟨.closing tag.name, closing⟩ :: inner', text', others',
      .element opens inside inside', rest', ?_⟩
    simp

/-- The closing tag of the innermost element within which the loop stands. -/
theorem Unwinds.cons_closing {text : List Char} {names : List (List Char)}
    (unwinds : Unwinds names lexemes) (name : List Char) :
    Unwinds (name :: names) (⟨.closing name, text⟩ :: lexemes) :=
  ⟨[], text, lexemes, .nil, unwinds, rfl⟩

theorem isLeaf_or_tag (token : Token) : token.isLeaf = true ∨
    (∃ tag, token = .opening tag ∧ tag.selfClosing = false) ∨ ∃ name, token = .closing name := by
  cases token with
  | opening tag =>
    cases closes : tag.selfClosing with
    | true => exact .inl closes
    | false => exact .inr (.inl ⟨tag, rfl, closes⟩)
  | closing name => exact .inr (.inr ⟨name, rfl⟩)
  | _ => exact .inl rfl

/-- The loop ends well only if there is a token, and then it either stops there or goes on. -/
theorem step_of_contentDownTo (run : contentDownTo outer name r = .ok content r') :
    ∃ scanned r₁, nextScanned r = .ok (some scanned) r₁ ∧
      if scanned.value.isClosing ∧ r₁.depth = outer then content = [] ∧ r' = r₁
      else ∃ rest, contentDownTo outer name r₁ = .ok rest r' ∧
        content = scanned.lexeme ++ rest := by
  have unfolded := run
  rw [contentDownTo] at unfolded
  split at unfolded
  · cases unfolded
  · cases unfolded
  · rename_i scanned r₁ step
    refine ⟨scanned, r₁, step, ?_⟩
    rw [contentDownTo_of_step step] at run
    split at run
    · cases run
      rename_i ends
      rw [if_pos ends]
      exact ⟨rfl, rfl⟩
    · rename_i goesOn
      rw [if_neg goesOn]
      split at run
      · cases run
      · rename_i rest r₂ behind
        cases run
        exact ⟨rest, behind, rfl⟩

/-- What the loop reads unwinds the elements that are open within, and then the closing tag of the
element itself follows. -/
theorem unwinds_of_contentDownTo {names outside : List (List Char)} {first : List Char}
    (opened : r.opened = names ++ first :: outside)
    (run : contentDownTo outside.length name r = .ok content r') :
    ∃ lexemes text, Unwinds names lexemes ∧ Reads r (lexemes ++ [⟨.closing first, text⟩]) r' ∧
      content = spell lexemes := by
  induction hn : r.left using Nat.strongRecOn generalizing r names content with
  | ind n ih =>
    subst hn
    obtain ⟨⟨token, text, rest⟩, r₁, step, goes⟩ := step_of_contentDownTo run
    have short := left_lt step
    have moves := moves_of_step step
    simp only at goes
    rcases isLeaf_or_tag token with leaf | ⟨tag, rfl, opens⟩ | ⟨closed, rfl⟩
    · have still := Token.not_isClosing_of_isLeaf leaf
      rw [if_neg (by simp [still])] at goes
      obtain ⟨content, behind, rfl⟩ := goes
      rw [← moves.of_leaf leaf] at opened
      obtain ⟨lexemes, closing, unwinds, reads, rfl⟩ := ih _ short opened behind rfl
      exact ⟨_, closing, unwinds.cons_leaf (l := ⟨token, text⟩) leaf, .cons step reads, rfl⟩
    · rw [if_neg (by simp [Token.isClosing])] at goes
      obtain ⟨content, behind, rfl⟩ := goes
      have deeper : r₁.opened = (tag.name :: names) ++ first :: outside := by
        rw [moves.of_opening opens, opened, List.cons_append]
      obtain ⟨lexemes, closing, unwinds, reads, rfl⟩ := ih _ short deeper behind rfl
      exact ⟨_, closing, unwinds.cons_opening opens, .cons step reads, rfl⟩
    · have outer := moves.of_closing
      rw [opened] at outer
      cases names with
      | nil =>
        obtain ⟨rfl, same⟩ := List.cons.inj outer
        rw [if_pos ⟨rfl, by rw [depth, ← same]⟩] at goes
        obtain ⟨rfl, rfl⟩ := goes
        exact ⟨[], text, .nil, .single step, rfl⟩
      | cons innermost names =>
        obtain ⟨rfl, same⟩ := List.cons.inj outer
        have within : r₁.opened = names ++ first :: outside := same.symm
        have deeper : r₁.depth ≠ outside.length := by
          rw [depth, within, List.length_append, List.length_cons]
          omega
        rw [if_neg fun ends => deeper ends.2] at goes
        obtain ⟨content, behind, rfl⟩ := goes
        obtain ⟨lexemes, closing, unwinds, reads, rfl⟩ := ih _ short within behind rfl
        exact ⟨_, closing, unwinds.cons_closing innermost, .cons step reads, rfl⟩

/-- Behind its opening tag, an element is read exactly where content and the closing tag follow. -/
theorem contentDownTo_eq_ok_iff {outside : List (List Char)} {first : List Char}
    (opened : r.opened = first :: outside) :
    contentDownTo outside.length name r = .ok content r' ↔
      ∃ inner text, Content inner ∧ Reads r (inner ++ [⟨.closing first, text⟩]) r' ∧
        content = spell inner := by
  constructor
  · intro run
    have opened' : r.opened = [] ++ first :: outside := opened
    exact unwinds_of_contentDownTo opened' run
  · rintro ⟨inner, text, inside, reads, rfl⟩
    obtain ⟨r₁, within, step⟩ := reads_concat_iff.1 reads
    have deep : outside.length < r.depth := by
      rw [depth, opened, List.length_cons]
      exact Nat.lt_succ_self _
    have closed := (moves_of_step step).of_closing
    rw [opened_of_content inside within, opened] at closed
    have ends : contentDownTo outside.length name r₁ = .ok [] r' := by
      have down : r'.depth = outside.length := congrArg List.length (List.cons.inj closed).2.symm
      rw [contentDownTo_of_step step, if_pos ⟨rfl, down⟩]
    rw [contentDownTo_of_content inside within deep ends, List.append_nil]

/-! ### Reading children -/

theorem nextChild_of_step {scanned : Scanned Token}
    (step : nextScanned r = .ok (some scanned) r₁) :
    nextChild r = if scanned.value.isMisc then nextChild r₁ else match scanned.value with
      | .opening tag => .ok (some tag) r₁
      | .closing _ => .ok none r₁
      | _ => .error (.unexpectedText r₁.tokenStart) r₁ := by
  rw [nextChild]
  split
  · rename_i fault
    rw [step] at fault
    cases fault
  · rename_i fault
    rw [step] at fault
    cases fault
  · rename_i found
    rw [step] at found
    cases found
    cases scanned.value <;> rfl

theorem nextChild_of_misc (misc : Misc gap) (reads : Reads r gap r₁) :
    nextChild r = nextChild r₁ :=
  eq_of_allOf (f := nextChild) (fun step first => by rw [nextChild_of_step step, if_pos first])
    misc reads

theorem endError?_eq_none_iff : r.endError? = none ↔ r.opened = [] := by
  simp [endError?]

/-- Within an element the search for a child does not come to an end without a token. -/
theorem step_of_nextChild {child : Option StartTag} (run : nextChild r = .ok child r')
    (within : child = none → r.opened ≠ []) :
    ∃ scanned r₁, nextScanned r = .ok (some scanned) r₁ := by
  rw [nextChild] at run
  split at run
  · cases run
  · rename_i r₁ ended
    obtain ⟨-, rfl⟩ := nextScanned_eq_none_iff.1 ended
    split at run
    · rename_i outside
      cases run
      exact absurd (endError?_eq_none_iff.1 outside) (within rfl)
    · cases run
  · rename_i scanned r₁ step
    exact ⟨scanned, r₁, step⟩

/-- The token with which the search for a child ends, after what it found. -/
def Ends (token : Token) : Option StartTag → Prop
  | some tag => token = .opening tag
  | none => ∃ name, token = .closing name

/-- The search for a child ends with a tag, or goes on behind what may stand between children. -/
theorem nextChild_cases {child : Option StartTag} (run : nextChild r = .ok child r')
    (within : child = none → r.opened ≠ []) :
    (∃ scanned, nextScanned r = .ok (some scanned) r' ∧ Ends scanned.value child) ∨
      ∃ scanned r₁, nextScanned r = .ok (some scanned) r₁ ∧ scanned.value.isMisc = true ∧
        nextChild r₁ = .ok child r' ∧ (child = none → r₁.opened ≠ []) := by
  obtain ⟨scanned, r₁, step⟩ := step_of_nextChild run within
  rw [nextChild_of_step step] at run
  split at run
  · rename_i misc
    have same := (moves_of_step step).of_leaf (Token.isLeaf_of_isMisc misc)
    exact .inr ⟨scanned, r₁, step, misc, run, same ▸ within⟩
  · left
    split at run
    · rename_i kind
      cases run
      exact ⟨scanned, step, kind⟩
    · rename_i name kind
      cases run
      exact ⟨scanned, step, name, kind⟩
    · cases run

/-- What the search for a child comes to: the first tag behind what may stand between children. -/
theorem misc_of_nextChild {child : Option StartTag} (run : nextChild r = .ok child r')
    (within : child = none → r.opened ≠ []) :
    ∃ gap r₁ scanned, Misc gap ∧ Reads r gap r₁ ∧ nextScanned r₁ = .ok (some scanned) r' ∧
      Ends scanned.value child := by
  obtain ⟨gap, r₁, misc, reads, scanned, step, kind⟩ := exists_allOf_of_loop
    (fun r => nextChild r = .ok child r' ∧ (child = none → r.opened ≠ []))
    (fun goes => nextChild_cases goes.1 goes.2) ⟨run, within⟩
  exact ⟨gap, r₁, scanned, misc, reads, step, kind⟩

theorem nextChild_eq_some_iff : nextChild r = .ok (some tag) r' ↔
    ∃ gap text, Misc gap ∧ Reads r (gap ++ [⟨.opening tag, text⟩]) r' := by
  constructor
  · intro run
    obtain ⟨gap, r₁, ⟨token, text, rest⟩, misc, before, step, kind⟩ :=
      misc_of_nextChild run (fun none => nomatch none)
    obtain rfl : token = .opening tag := kind
    exact ⟨gap, text, misc, before.append (.single step)⟩
  · rintro ⟨gap, text, misc, reads⟩
    obtain ⟨r₁, before, step⟩ := reads_concat_iff.1 reads
    rw [nextChild_of_misc misc before, nextChild_of_step step]
    rfl

/-- No child is left where the closing tag of the element around comes next. -/
theorem nextChild_eq_none_iff {first : List Char} {outside : List (List Char)}
    (opened : r.opened = first :: outside) : nextChild r = .ok none r' ↔
      ∃ gap text, Misc gap ∧ Reads r (gap ++ [⟨.closing first, text⟩]) r' := by
  constructor
  · intro run
    have within : r.opened ≠ [] := by simp [opened]
    obtain ⟨gap, r₁, ⟨token, text, rest⟩, misc, before, step, name, kind⟩ :=
      misc_of_nextChild run fun _ => within
    obtain rfl : token = .closing name := kind
    have closed := (moves_of_step step).of_closing
    rw [opened_of_content (content_of_misc misc) before, opened] at closed
    obtain ⟨rfl, -⟩ := List.cons.inj closed
    exact ⟨gap, text, misc, before.append (.single step)⟩
  · rintro ⟨gap, text, misc, reads⟩
    obtain ⟨r₁, before, step⟩ := reads_concat_iff.1 reads
    rw [nextChild_of_misc misc before, nextChild_of_step step]
    rfl

/-- Outside of all elements the search for a child ends with the text. -/
theorem nextChild_outside_iff (outside : r.opened = []) : nextChild r = .ok none r' ↔
    ∃ gap, Misc gap ∧ Reads r gap r' ∧ r'.rest = [] := by
  constructor
  · intro run
    have once {r : Reader} (goes : nextChild r = .ok none r' ∧ r.opened = []) :
        (r.rest = [] ∧ r' = r) ∨ ∃ scanned r₁, nextScanned r = .ok (some scanned) r₁ ∧
          scanned.value.isMisc = true ∧ nextChild r₁ = .ok none r' ∧ r₁.opened = [] := by
      obtain ⟨run, outside⟩ := goes
      have unfolded := run
      rw [nextChild] at unfolded
      split at unfolded
      · cases unfolded
      · rename_i r₁ last
        obtain ⟨ended, rfl⟩ := nextScanned_eq_none_iff.1 last
        split at unfolded <;> cases unfolded
        exact .inl ⟨ended, rfl⟩
      · rename_i scanned r₁ step
        rw [nextChild_of_step step] at run
        split at run
        · rename_i misc
          have same := (moves_of_step step).of_leaf (Token.isLeaf_of_isMisc misc)
          exact .inr ⟨scanned, r₁, step, misc, run, same.trans outside⟩
        · split at run
          · cases run
          · rename_i name kind
            have moves := moves_of_step step
            rw [kind] at moves
            rw [moves.of_closing] at outside
            cases outside
          · cases run
    obtain ⟨gap, r₁, misc, reads, ended, rfl⟩ := exists_allOf_of_loop
      (fun r => nextChild r = .ok none r' ∧ r.opened = []) once ⟨run, outside⟩
    exact ⟨gap, misc, reads, ended⟩
  · rintro ⟨gap, misc, reads, ended⟩
    have last : nextScanned r' = .ok none r' := nextScanned_eq_none_iff.2 ⟨ended, rfl⟩
    have still : r'.endError? = none :=
      endError?_eq_none_iff.2 ((opened_of_content (content_of_misc misc) reads).trans outside)
    rw [nextChild_of_misc misc reads, nextChild]
    split <;> simp_all

theorem elementContent_of_opened {outside : List (List Char)} (opens : tag.selfClosing = false)
    (opened : r.opened = tag.name :: outside) :
    elementContent tag r = contentDownTo outside.length tag.name r := by
  have depth : r.depth - 1 = outside.length := by
    rw [Reader.depth, opened]
    rfl
  rw [elementContent, opens, depth]
  rfl

/-- Behind its opening tag the rest of an element is read exactly where it stands. -/
theorem elementContent_eq_ok_iff {text : List Char}
    (opened : tag.selfClosing = false → ∃ outside, r.opened = tag.name :: outside) :
    elementContent tag r = .ok content r' ↔
      ∃ others, Element tag content (⟨.opening tag, text⟩ :: others) ∧ Reads r others r' := by
  cases closes : tag.selfClosing with
  | true =>
    rw [elementContent, if_pos closes]
    constructor
    · intro run
      cases run
      exact ⟨[], .empty closes, .nil _⟩
    · rintro ⟨others, element, reads⟩
      obtain ⟨rfl, opening, same⟩ := element.of_selfClosing closes
      obtain ⟨-, rfl⟩ := List.cons.inj same
      rw [reads_nil_iff.1 reads]
  | false =>
    obtain ⟨outside, opened⟩ := opened closes
    rw [elementContent_of_opened closes opened, contentDownTo_eq_ok_iff opened]
    constructor
    · rintro ⟨inner, closing, inside, reads, rfl⟩
      exact ⟨_, .filled closes inside, reads⟩
    · rintro ⟨others, element, reads⟩
      obtain ⟨opening, inner, closing, inside, rfl, same⟩ := element.of_opens closes
      obtain ⟨-, rfl⟩ := List.cons.inj same
      exact ⟨inner, closing, inside, reads, rfl⟩

/-- The reader finds a child, and then its content, exactly where the tokens go on with one. -/
theorem child_eq_ok_iff :
    (∃ r₁, nextChild r = .ok (some tag) r₁ ∧ elementContent tag r₁ = .ok content r') ↔
      ∃ lexemes, Child tag content lexemes ∧ Reads r lexemes r' := by
  -- behind its opening tag the element is the innermost one, unless the tag closes it too
  have inside {gap : List Lexeme} {text : List Char} {r₁ : Reader}
      (before : Reads r (gap ++ [⟨.opening tag, text⟩]) r₁) (opens : tag.selfClosing = false) :
      ∃ outside, r₁.opened = tag.name :: outside := by
    obtain ⟨r₂, -, step⟩ := reads_concat_iff.1 before
    exact ⟨r₂.opened, (moves_of_step step).of_opening opens⟩
  constructor
  · rintro ⟨r₁, found, run⟩
    obtain ⟨gap, text, misc, before⟩ := nextChild_eq_some_iff.1 found
    obtain ⟨others, element, after⟩ := (elementContent_eq_ok_iff (inside before)).1 run
    have reads := before.append after
    rw [List.append_assoc, List.singleton_append] at reads
    exact ⟨_, .mk misc element, reads⟩
  · rintro ⟨_, ⟨misc, element⟩, reads⟩
    obtain ⟨text, others, rfl⟩ := element.eq_cons
    rw [← List.singleton_append, ← List.append_assoc] at reads
    obtain ⟨r₁, before, after⟩ := reads_append_iff.1 reads
    exact ⟨r₁, nextChild_eq_some_iff.2 ⟨_, _, misc, before⟩,
      (elementContent_eq_ok_iff (inside before)).2 ⟨others, element, after⟩⟩

end Reader

end SectionStore.Markup
