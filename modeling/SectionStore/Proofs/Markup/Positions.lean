import SectionStore.Proofs.Markup.Reading

/-!
# Where tokens stand in a text

A reader counts the octets that it has read, and `Reader.Stands` says that the count is right. A
call that returns a token takes a lexeme off the text (`next_eq_some_iff`), whose octets are those
from the place where the token began up to the reader behind it (`Stands.behind`).

`exhaust` calls `next` until there is no token. `Reader.Follows` is what holds of a reader and of
the tokens that were returned before it: they end where the reader stands, and the elements that are
open are those that they have opened and not closed. A call keeps it (`Follows.concat`), so each
token that is returned fits to those before it. Main statement: `exhaust_tiles`.
-/

namespace SectionStore.Markup

/-! ### Octets of a text -/

/-- The octets of a text from one offset up to another. -/
def slice (text : List Char) (start stop : Nat) : ByteArray :=
  (Utf8.encode text).extract start stop

/-- A character of the text begins at the offset, or the text ends there. -/
def IsBoundary (text : List Char) (offset : Nat) : Prop :=
  String.Pos.Raw.IsValid (String.ofList text) ⟨offset⟩

theorem utf8ByteSize_ofList (text : List Char) :
    (String.ofList text).utf8ByteSize = Utf8.size text := by
  induction text with
  | nil => rfl
  | cons c rest ih =>
    have split : String.ofList ([c] ++ rest) = String.ofList [c] ++ String.ofList rest :=
      String.ofList_append
    rw [← List.singleton_append, split, String.utf8ByteSize_append, ih,
      ← String.singleton_eq_ofList, String.utf8ByteSize_singleton, List.singleton_append,
      Utf8.size_cons]

theorem size_encode (text : List Char) : (Utf8.encode text).size = Utf8.size text := by
  rw [← utf8ByteSize_ofList]
  rfl

theorem size_pos {text : List Char} (nonempty : text ≠ []) : 0 < Utf8.size text := by
  cases text with
  | nil => exact absurd rfl nonempty
  | cons c rest => exact Nat.add_pos_left c.utf8Size_pos _

theorem size_eq_zero_iff {text : List Char} : Utf8.size text = 0 ↔ text = [] := by
  constructor
  · intro empty
    refine Decidable.byContradiction fun nonempty => ?_
    have := size_pos nonempty
    omega
  · rintro rfl
    rfl

theorem size_le_of_isPrefix {before text : List Char} (along : before <+: text) :
    Utf8.size before ≤ Utf8.size text := by
  obtain ⟨rest, rfl⟩ := along
  rw [Utf8.size_append]
  exact Nat.le_add_right _ _

/-- The octets of a lexeme stand where the characters before it end. -/
theorem slice_append (before lexeme rest : List Char) :
    slice (before ++ (lexeme ++ rest)) (Utf8.size before) (Utf8.size before + Utf8.size lexeme) =
      Utf8.encode lexeme := by
  rw [slice, Utf8.encode_append, Utf8.encode_append, ← size_encode before, ← size_encode lexeme]
  calc
    _ = (Utf8.encode lexeme ++ Utf8.encode rest).extract 0 (Utf8.encode lexeme).size :=
      ByteArray.extract_append_size_add
    _ = Utf8.encode lexeme := ByteArray.extract_append_eq_left rfl

theorem slice_append_slice {text : List Char} {start middle stop : Nat} (h : start ≤ middle)
    (h' : middle ≤ stop) :
    slice text start middle ++ slice text middle stop = slice text start stop :=
  (ByteArray.extract_eq_extract_append_extract middle h h').symm

theorem isBoundary_append (before rest : List Char) :
    IsBoundary (before ++ rest) (Utf8.size before) := by
  refine String.Pos.Raw.isValid_iff_exists_append.2
    ⟨String.ofList before, String.ofList rest, String.ofList_append, ?_⟩
  rw [← utf8ByteSize_ofList]
  rfl

/-! ### One call -/

namespace Reader

/-- The count of the octets read is right: they are those of the text before what is left. -/
def Stands (text : List Char) (r : Reader) : Prop :=
  ∃ before, text = before ++ r.rest ∧ r.offset = Utf8.size before

variable {text lexeme : List Char} {r r' : Reader} {token : Token} {e : Error}

theorem stands_ofText (text : List Char) : Stands text (ofText text) :=
  ⟨[], rfl, rfl⟩

theorem Stands.offset_le (stands : Stands text r) : r.offset ≤ Utf8.size text := by
  obtain ⟨before, split, here⟩ := stands
  rw [split, here, Utf8.size_append]
  exact Nat.le_add_right _ _

theorem Stands.isBoundary (stands : Stands text r) : IsBoundary text r.offset := by
  obtain ⟨before, split, here⟩ := stands
  rw [split, here]
  exact isBoundary_append before r.rest

theorem Stands.offset_eq_of_ended (stands : Stands text r) (ended : r.rest = []) :
    r.offset = Utf8.size text := by
  obtain ⟨before, split, here⟩ := stands
  rw [split, here, ended, List.append_nil]

/-- Behind a lexeme the count is right again, and its octets are those in between. -/
theorem Stands.behind (stands : Stands text r) (split : r.rest = lexeme ++ r'.rest)
    (stop : r'.offset = r.offset + Utf8.size lexeme) :
    Stands text r' ∧ slice text r.offset r'.offset = Utf8.encode lexeme := by
  obtain ⟨before, whole, here⟩ := stands
  rw [split] at whole
  refine ⟨⟨before ++ lexeme, ?_, ?_⟩, ?_⟩
  · rw [whole, List.append_assoc]
  · rw [stop, here, Utf8.size_append]
  · rw [stop, here, whole]
    exact slice_append before lexeme r'.rest

theorem next_eq_some_iff_nextScanned :
    next r = .ok (some token) r' ↔
      ∃ scanned, nextScanned r = .ok (some scanned) r' ∧ scanned.value = token := by
  unfold next
  split
  · rename_i found r₁ step
    cases found with
    | none => simp [step]
    | some scanned => simp [step, and_comm]
  · rename_i step
    simp [step]

/-- A call that returns a token takes a lexeme of it off the text. -/
theorem next_eq_some_iff :
    next r = .ok (some token) r' ↔
      ∃ lexeme, TokenForm token lexeme ∧ token.EndsBefore r'.rest ∧ r.rest = lexeme ++ r'.rest ∧
        token.Moves r.opened r'.opened ∧ r'.tokenStart = r.offset ∧
        r'.offset = r.offset + Utf8.size lexeme := by
  rw [next_eq_some_iff_nextScanned]
  constructor
  · rintro ⟨scanned, step, rfl⟩
    obtain ⟨nonempty, found, rest, stop, start⟩ := nextScanned_eq_some step
    obtain ⟨form, ends, split⟩ := (scan_eq_ok_iff nonempty).1 found
    rw [← rest] at ends split
    exact ⟨scanned.lexeme, form, ends, split, moves_of_step step, start, stop⟩
  · rintro ⟨lexeme, form, ends, split, moves, start, stop⟩
    have nonempty : r.rest ≠ [] := by simp [split, form.ne_nil]
    have found : scan r.rest = .ok ⟨token, lexeme, r'.rest⟩ := split ▸ scan_of_form form ends
    refine ⟨_, nextScanned_eq_some_iff.2 ⟨nonempty, found, moves, ?_⟩, rfl⟩
    rw [pass, ← start, start, ← stop, ← start]

theorem left_lt_of_next (step : next r = .ok (some token) r') : r'.left < r.left := by
  obtain ⟨scanned, step, -⟩ := next_eq_some_iff_nextScanned.1 step
  exact left_lt step

/-- There is no token only at the end of the text. -/
theorem ended_of_next (step : next r = .ok none r') : r.rest = [] ∧ r' = r := by
  unfold next at step
  split at step
  · rename_i found r₁ here
    cases found with
    | some scanned => cases step
    | none =>
      cases step
      exact nextScanned_eq_none_iff.1 here
  · cases step

/-- A call that fails stays where it is. -/
theorem stays_of_next (step : next r = .error e r') : r'.rest = r.rest ∧ r'.offset = r.offset := by
  unfold next at step
  split at step
  · cases step
  rename_i failed
  cases step
  unfold nextScanned at failed
  split at failed
  · cases failed
  simp only at failed
  repeat' split at failed
  all_goals cases failed
  all_goals exact ⟨rfl, rfl⟩

theorem Stands.of_fault (stands : Stands text r) (step : next r = .error e r') :
    Stands text r' := by
  obtain ⟨rest, here⟩ := stays_of_next step
  rw [Stands, rest, here]
  exact stands

/-- The readers that calls of `next` come to from the beginning of a text, failed calls included. -/
inductive Visits (text : List Char) : Reader → Prop where
  | start : Visits text (ofText text)
  | returned {r r' : Reader} {found : Option Token} (visits : Visits text r)
      (step : next r = .ok found r') : Visits text r'
  | failed {r r' : Reader} {e : Error} (visits : Visits text r) (step : next r = .error e r') :
      Visits text r'

theorem Visits.stands (visits : Visits text r) : Stands text r := by
  induction visits with
  | start => exact stands_ofText text
  | @returned r r' found _ step ih =>
    cases found with
    | none =>
      obtain ⟨-, rfl⟩ := ended_of_next step
      exact ih
    | some token =>
      obtain ⟨lexeme, -, -, split, -, -, stop⟩ := next_eq_some_iff.1 step
      exact (ih.behind split stop).1
  | failed _ step ih => exact ih.of_fault step

end Reader

/-! ### Calls until there is no token -/

/-- A token that was returned, with the reader behind it. -/
structure Taken where
  token : Token
  behind : Reader
  deriving DecidableEq, Repr

/-- Where the token begins. -/
def Taken.start (t : Taken) : Nat := t.behind.tokenStart

/-- Where the token ends. -/
def Taken.stop (t : Taken) : Nat := t.behind.offset

/-- What calling `next` until there is no token comes to. -/
structure Tokenized where
  /-- The tokens that were returned. -/
  taken : List Taken
  /-- The number of calls. -/
  calls : Nat
  /-- The error of the last call, if it failed. -/
  fault : Option Error
  /-- The reader behind the last call. -/
  last : Reader
  deriving DecidableEq, Repr

/-- Calls `next` until there is no token. -/
def Reader.exhaust (r : Reader) : Tokenized :=
  match h : next r with
  | .error e r' => ⟨[], 1, some e, r'⟩
  | .ok none r' => ⟨[], 1, none, r'⟩
  | .ok (some token) r' =>
    have := left_lt_of_next h
    let others := exhaust r'
    { others with taken := ⟨token, r'⟩ :: others.taken, calls := others.calls + 1 }
termination_by r.left

theorem Reader.exhaust_eq {r : Reader} {result : EStateM.Result Error Reader (Option Token)}
    (step : next r = result) :
    r.exhaust = match result with
      | .error e r' => ⟨[], 1, some e, r'⟩
      | .ok none r' => ⟨[], 1, none, r'⟩
      | .ok (some token) r' => { r'.exhaust with
          taken := ⟨token, r'⟩ :: r'.exhaust.taken, calls := r'.exhaust.calls + 1 } := by
  rw [exhaust]
  split
  all_goals
    rename_i found
    obtain rfl := step.symm.trans found
    rfl

/-- Where the last token ends, or the beginning of the text. -/
def endOf (taken : List Taken) : Nat :=
  taken.getLast?.elim 0 Taken.stop

/-- The octets of the tokens, one token after another. -/
def octetsOf (text : List Char) (taken : List Taken) : ByteArray :=
  taken.foldl (fun octets t => octets ++ slice text t.start t.stop) ByteArray.empty

/-- Does the token open an element that has content? -/
def Token.opens : Token → Bool
  | .opening tag => !tag.selfClosing
  | _ => false

/-- The names of the open elements behind a token, the innermost first. -/
def Token.leaves (opened : List (List Char)) : Token → List (List Char)
  | .opening tag => if tag.selfClosing then opened else tag.name :: opened
  | .closing _ => opened.tail
  | _ => opened

/-- The names of the elements that are open behind the tokens, the innermost first. -/
def openNames (taken : List Taken) : List (List Char) :=
  taken.foldl (fun opened t => t.token.leaves opened) []

@[simp] theorem endOf_concat (taken : List Taken) (t : Taken) : endOf (taken ++ [t]) = t.stop := by
  simp [endOf]

@[simp] theorem octetsOf_concat (text : List Char) (taken : List Taken) (t : Taken) :
    octetsOf text (taken ++ [t]) = octetsOf text taken ++ slice text t.start t.stop := by
  simp [octetsOf]

@[simp] theorem openNames_concat (taken : List Taken) (t : Taken) :
    openNames (taken ++ [t]) = t.token.leaves (openNames taken) := by
  simp [openNames]

theorem Token.Moves.leaves_eq {token : Token} {before after : List (List Char)}
    (moves : token.Moves before after) : token.leaves before = after := by
  cases moves with
  | leaf leaf => cases token <;> simp_all [Token.leaves, Token.isLeaf]
  | opening opens => simp [Token.leaves, opens]
  | closing => rfl

/-- The number of open elements grows by an opening tag and shrinks by a closing one. -/
theorem Token.Moves.length_add {token : Token} {before after : List (List Char)}
    (moves : token.Moves before after) :
    after.length + token.isClosing.toNat = before.length + token.opens.toNat := by
  cases moves with
  | leaf leaf => cases token <;> simp_all [Token.isClosing, Token.opens, Token.isLeaf]
  | opening opens => simp [Token.isClosing, Token.opens, opens]
  | closing => rfl

/-- The number of elements with content that the tokens open. -/
def openings (taken : List Taken) : Nat :=
  taken.countP (·.token.opens)

/-- The number of closing tags. -/
def closings (taken : List Taken) : Nat :=
  taken.countP (·.token.isClosing)

@[simp] theorem openings_concat (taken : List Taken) (t : Taken) :
    openings (taken ++ [t]) = openings taken + t.token.opens.toNat := by
  cases h : t.token.opens <;> simp [openings, h]

@[simp] theorem closings_concat (taken : List Taken) (t : Taken) :
    closings (taken ++ [t]) = closings taken + t.token.isClosing.toNat := by
  cases h : t.token.isClosing <;> simp [closings, h]

/-- The token fits to those that were returned before it. -/
structure Fits (text : List Char) (before : List Taken) (t : Taken) : Prop where
  begins : t.start = endOf before
  nonempty : t.start < t.stop
  within : t.stop ≤ (Utf8.encode text).size
  startsAt : IsBoundary text t.start
  stopsAt : IsBoundary text t.stop
  /-- As many elements are open as were opened and not closed. -/
  balanced : (t.behind.depth : Int) = openings (before ++ [t]) - closings (before ++ [t])
  /-- A closing tag bears the name of the innermost element that was open. -/
  innermost : ∀ name, t.token = .closing name → (openNames before).head? = some name

namespace Reader

/-- The reader stands behind the tokens. -/
structure Follows (text : List Char) (taken : List Taken) (r : Reader) : Prop where
  stands : Stands text r
  ends : r.offset = endOf taken
  octets : octetsOf text taken = slice text 0 r.offset
  opened : r.opened = openNames taken
  depth : r.depth + closings taken = openings taken

variable {text : List Char} {r r' : Reader} {token : Token} {before : List Taken}

theorem follows_ofText (text : List Char) : Follows text [] (ofText text) where
  stands := stands_ofText text
  ends := rfl
  octets := by simp [octetsOf, slice, ofText]
  opened := rfl
  depth := rfl

/-- A call that returns a token keeps the reader behind the tokens. -/
theorem Follows.concat (follows : Follows text before r) (step : next r = .ok (some token) r') :
    Fits text before ⟨token, r'⟩ ∧ Follows text (before ++ [⟨token, r'⟩]) r' := by
  obtain ⟨lexeme, form, -, split, moves, start, stop⟩ := next_eq_some_iff.1 step
  obtain ⟨stands, -⟩ := follows.stands.behind split stop
  have longer : r.offset < r'.offset := by
    have := size_pos form.ne_nil
    omega
  have depth : r'.depth + closings (before ++ [⟨token, r'⟩]) =
      openings (before ++ [⟨token, r'⟩]) := by
    have length := moves.length_add
    have depth := follows.depth
    rw [closings_concat, openings_concat]
    simp only [Reader.depth] at *
    omega
  constructor
  · exact {
      begins := start.trans follows.ends
      nonempty := lt_of_eq_of_lt start longer
      within := size_encode text ▸ stands.offset_le
      startsAt := by
        rw [Taken.start, start]
        exact follows.stands.isBoundary
      stopsAt := stands.isBoundary
      balanced := by
        simp only
        omega
      innermost := by
        rintro name rfl
        rw [← follows.opened, moves.of_closing]
        rfl }
  · exact {
      stands := stands
      ends := by
        rw [endOf_concat]
        rfl
      octets := by
        rw [octetsOf_concat, follows.octets, Taken.start, start]
        exact slice_append_slice (Nat.zero_le _) (Nat.le_of_lt longer)
      opened := by rw [openNames_concat, ← follows.opened, moves.leaves_eq]
      depth := depth }

/-- Whatever was returned before, the calls that follow return tokens that fit, and the last one
comes to the end of them. -/
theorem Follows.exhaust (follows : Follows text before r) :
    (∀ inner t after, r.exhaust.taken = inner ++ t :: after → Fits text (before ++ inner) t) ∧
      r.exhaust.last.offset = endOf (before ++ r.exhaust.taken) ∧
      octetsOf text (before ++ r.exhaust.taken) = slice text 0 r.exhaust.last.offset ∧
      (r.exhaust.fault = none → r.exhaust.last.offset = Utf8.size text) := by
  induction r using Reader.exhaust.induct generalizing before with
  | case1 r e r' step =>
    obtain ⟨-, here⟩ := stays_of_next step
    rw [exhaust_eq step]
    refine ⟨by simp, ?_, ?_, by simp⟩
    · rw [here, List.append_nil, follows.ends]
    · rw [here, List.append_nil, follows.octets]
  | case2 r r' step =>
    obtain ⟨ended, rfl⟩ := ended_of_next step
    rw [exhaust_eq step]
    refine ⟨by simp, ?_, ?_, fun _ => follows.stands.offset_eq_of_ended ended⟩
    · rw [List.append_nil, follows.ends]
    · rw [List.append_nil, follows.octets]
  | case3 r token r' step _ ih =>
    obtain ⟨fits, behind⟩ := follows.concat step
    obtain ⟨others, ends, octets, whole⟩ := ih behind
    rw [List.append_assoc] at ends octets
    rw [exhaust_eq step]
    refine ⟨?_, ends, octets, whole⟩
    rintro (_ | ⟨first, inner⟩) t after split
    · obtain ⟨rfl, -⟩ := List.cons.inj split
      rw [List.append_nil]
      exact fits
    · obtain ⟨rfl, along⟩ : Taken.mk token r' = first ∧ r'.exhaust.taken = inner ++ t :: after :=
        List.cons.inj split
      have := others inner t after along
      rwa [List.append_assoc] at this

/-- Every call but the last takes an octet at least. -/
theorem calls_exhaust_le (r : Reader) : r.exhaust.calls ≤ Utf8.size r.rest + 1 := by
  induction r using Reader.exhaust.induct with
  | case1 r e r' step =>
    rw [exhaust_eq step]
    exact Nat.le_add_left _ _
  | case2 r r' step =>
    rw [exhaust_eq step]
    exact Nat.le_add_left _ _
  | case3 r token r' step _ ih =>
    obtain ⟨lexeme, form, -, split, -⟩ := next_eq_some_iff.1 step
    have := size_pos form.ne_nil
    rw [exhaust_eq step, split, Utf8.size_append]
    simp only
    omega

/-- The tokens of a text tile it from its beginning to where the calls end. -/
theorem exhaust_tiles (text : List Char) :
    (ofText text).exhaust.calls ≤ (Utf8.encode text).size + 1 ∧
      (∀ before t after, (ofText text).exhaust.taken = before ++ t :: after → Fits text before t) ∧
      (ofText text).exhaust.last.offset = endOf (ofText text).exhaust.taken ∧
      octetsOf text (ofText text).exhaust.taken = slice text 0 (ofText text).exhaust.last.offset ∧
      ((ofText text).exhaust.fault = none →
        octetsOf text (ofText text).exhaust.taken = Utf8.encode text) := by
  obtain ⟨fit, ends, octets, whole⟩ := (follows_ofText text).exhaust
  refine ⟨?_, fit, ends, octets, fun ended => ?_⟩
  · rw [size_encode]
    exact calls_exhaust_le (ofText text)
  · rw [← List.nil_append (exhaust _).taken, octets, whole ended, ← size_encode]
    exact ByteArray.extract_zero_size

end Reader

end SectionStore.Markup
