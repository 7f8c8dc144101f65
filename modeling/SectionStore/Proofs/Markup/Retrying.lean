import SectionStore.Proofs.Markup.Positions

/-!
# Calling again after an error

A call of `next` fails in one of three ways (`next_eq_error_iff`): no token stands where the reader
is, or it is a closing tag and no element is open, or a closing tag with another name than that of
the innermost open element. In the first two ways the reader stays as it is, and fails again however
often it is called (`calls_of_stays`). In the third the innermost element is taken off before the
names are compared, so each further call tries the closing tag on the next element around, until one
has its name and is closed (`calls_of_mem`), or none is left (`calls_of_not_mem`).
Main statement: `calls_again`.
-/

namespace SectionStore.Markup.Reader

/-- The reader when it has begun a token and read nothing of it. -/
def begun (r : Reader) : Reader :=
  { r with tokenStart := r.offset }

/-- How a call of `next` fails: with which error, and what becomes of the reader. -/
inductive FailsWith (r : Reader) : Error → Reader → Prop where
  | noToken {fault : ScanFault} (found : scan r.rest = .error fault) :
      FailsWith r (r.errorOf fault) r.begun
  | notOpened {name lexeme rest : List Char} (found : scan r.rest = .ok ⟨.closing name, lexeme, rest⟩)
      (bare : r.opened = []) : FailsWith r (.syntaxError r.offset (.notOpened name)) r.begun
  | mismatched {name lexeme rest innermost : List Char} {outer : List (List Char)}
      (found : scan r.rest = .ok ⟨.closing name, lexeme, rest⟩)
      (opened : r.opened = innermost :: outer) (differ : innermost ≠ name) :
      FailsWith r (.mismatchedTag r.offset innermost name) { r.begun with opened := outer }

/-- Calls `next` a number of times, whatever the calls come to. Gives their results, and the reader
behind them. -/
def calls : Nat → Reader → List (Except Error (Option Token)) × Reader
  | 0, r => ([], r)
  | n + 1, r =>
    match next r with
    | .ok found r' => (.ok found :: (calls n r').1, (calls n r').2)
    | .error e r' => (.error e :: (calls n r').1, (calls n r').2)

variable {r r' : Reader} {e : Error} {name : List Char}

/-! ### How a call fails -/

theorem next_eq_error_iff_nextScanned : next r = .error e r' ↔ nextScanned r = .error e r' := by
  unfold next
  split
  · rename_i step
    simp [step]
  · rename_i step
    simp [step]

theorem failsWith_of_next (step : next r = .error e r') : r.rest ≠ [] ∧ FailsWith r e r' := by
  rw [next_eq_error_iff_nextScanned] at step
  unfold nextScanned at step
  split at step
  · cases step
  rename_i nonempty
  refine ⟨nonempty, ?_⟩
  simp only at step
  split at step
  · rename_i fault found
    cases step
    exact .noToken found
  rename_i scanned found
  split at step
  · cases step
  · rename_i name kind
    have found : scan r.rest = .ok ⟨.closing name, scanned.lexeme, scanned.rest⟩ := by
      rw [found, ← kind]
    split at step
    · rename_i bare
      cases step
      exact .notOpened found bare
    · rename_i innermost outer opened
      split at step
      · cases step
      · rename_i differ
        cases step
        exact .mismatched found opened differ
  · cases step

theorem next_of_failsWith (nonempty : r.rest ≠ []) (fails : FailsWith r e r') :
    next r = .error e r' := by
  rw [next_eq_error_iff_nextScanned]
  unfold nextScanned
  rw [if_neg nonempty]
  cases fails with
  | noToken found =>
    simp only [found]
    rfl
  | notOpened found bare =>
    simp only [found, bare, begun]
  | mismatched found opened differ =>
    simp only [found, opened, if_neg differ, begun]

/-- A call fails where there is text left, in one of the three ways. -/
theorem next_eq_error_iff : next r = .error e r' ↔ r.rest ≠ [] ∧ FailsWith r e r' :=
  ⟨failsWith_of_next, fun ⟨nonempty, fails⟩ => next_of_failsWith nonempty fails⟩

/-! ### Calling again -/

theorem calls_succ_of_error (step : next r = .error e r') (n : Nat) :
    calls (n + 1) r = (.error e :: (calls n r').1, (calls n r').2) := by
  rw [calls, step]

/-- A reader that fails and stays as it is fails in the same way at every call. -/
theorem calls_of_stays (stays : next r = .error e r) (n : Nat) :
    calls n r = (List.replicate n (.error e), r) := by
  induction n with
  | zero => rfl
  | succ n ih => rw [calls_succ_of_error stays, ih, List.replicate_succ]

/-- The results of trying a closing tag on elements of other names. -/
def mismatches (offset : Nat) (name : List Char) (opened : List (List Char)) :
    List (Except Error (Option Token)) :=
  opened.map fun other => .error (.mismatchedTag offset other name)

variable {lexeme rest : List Char} {inner outer : List (List Char)}

/-- In front of a closing tag, each call takes one element of another name off. -/
theorem calls_of_others (found : scan r.rest = .ok ⟨.closing name, lexeme, rest⟩)
    (nonempty : r.rest ≠ []) (opened : r.opened = inner ++ outer) (other : name ∉ inner) (n : Nat) :
    ∃ r', r'.rest = r.rest ∧ r'.offset = r.offset ∧ r'.opened = outer ∧
      calls (inner.length + n) r =
        (mismatches r.offset name inner ++ (calls n r').1, (calls n r').2) := by
  induction inner generalizing r with
  | nil => exact ⟨r, rfl, rfl, opened, by simp [mismatches]⟩
  | cons innermost inner ih =>
    obtain ⟨differ, other⟩ := not_or.1 (mt List.mem_cons.2 other)
    rw [List.cons_append] at opened
    have step := next_of_failsWith nonempty (.mismatched found opened (Ne.symm differ))
    obtain ⟨r', here, offset, left, others⟩ :=
      @ih { r.begun with opened := inner ++ outer } found nonempty rfl other
    refine ⟨r', here, offset, left, ?_⟩
    rw [List.length_cons, Nat.add_right_comm, calls_succ_of_error step, others]
    rfl

/-- If an element of the name is open, it is closed once those inside of it are taken off. -/
theorem calls_of_mem (found : scan r.rest = .ok ⟨.closing name, lexeme, rest⟩)
    (nonempty : r.rest ≠ []) (opened : r.opened = inner ++ name :: outer) (other : name ∉ inner) :
    ∃ r', r'.opened = outer ∧
      calls (inner.length + 1) r =
        (mismatches r.offset name inner ++ [.ok (some (.closing name))], r') := by
  obtain ⟨r₁, here, -, left, others⟩ := calls_of_others found nonempty opened other 1
  obtain ⟨form, ends, split⟩ := (scan_eq_ok_iff nonempty).1 found
  let behind : Reader := ⟨rest, r₁.offset + Utf8.size lexeme, r₁.offset, outer⟩
  have closed : next r₁ = .ok (some (.closing name)) behind :=
    next_eq_some_iff.2 ⟨lexeme, form, ends, here.trans split, left ▸ .closing, rfl, rfl⟩
  have last : calls 1 r₁ = ([.ok (some (.closing name))], behind) := by simp only [calls, closed]
  exact ⟨behind, rfl, by rw [others, last]⟩

/-- If none is open, all elements are taken off, and then every call fails. -/
theorem calls_of_not_mem (found : scan r.rest = .ok ⟨.closing name, lexeme, rest⟩)
    (nonempty : r.rest ≠ []) (absent : name ∉ r.opened) (n : Nat) :
    ∃ r', r'.opened = [] ∧
      calls (r.opened.length + n + 1) r = (mismatches r.offset name r.opened ++
        List.replicate (n + 1) (.error (.syntaxError r.offset (.notOpened name))), r') := by
  obtain ⟨r₁, here, offset, left, others⟩ :=
    calls_of_others found nonempty (List.append_nil _).symm absent (n + 1)
  rw [← here] at found nonempty
  rw [← offset] at *
  have step := next_of_failsWith nonempty (.notOpened found left)
  have stays : next r₁.begun = .error _ r₁.begun :=
    next_of_failsWith nonempty (.notOpened found left)
  refine ⟨r₁.begun, left, ?_⟩
  rw [Nat.add_assoc, others, calls_succ_of_error step, calls_of_stays stays, List.replicate_succ]
  rfl

/-- A tag without attributes is read, and its element is open then. -/
theorem next_bareTag {before : List (List Char)} {offset start : Nat}
    (named : isName name = true) :
    next ⟨'<' :: name ++ '>' :: rest, offset, start, before⟩ =
      .ok (some (.opening ⟨name, [], false⟩))
        ⟨rest, offset + Utf8.size ('<' :: name ++ ['>']), offset, name :: before⟩ := by
  have written : TokenForm (.opening ⟨name, [], false⟩) ('<' :: name ++ ['>']) :=
    .opening named (@AttributesForm.bracket [] rfl)
  exact next_eq_some_iff.2 ⟨_, written, trivial, by simp, .opening rfl, rfl, rfl⟩

/-- A call that fails keeps its place. It keeps the open elements too, and fails again, unless it has
found a closing tag with another name than that of the innermost element: that element is gone, and
the calls that follow try the closing tag on those around. -/
theorem calls_again (step : next r = .error e r') :
    r'.rest = r.rest ∧ r'.offset = r.offset ∧
      ((∀ expected found, e ≠ .mismatchedTag r.offset expected found) →
        r'.opened = r.opened ∧ ∀ n, calls n r' = (List.replicate n (.error e), r')) ∧
      ∀ offset expected found, e = .mismatchedTag offset expected found →
        offset = r.offset ∧ r.opened = expected :: r'.opened ∧ expected ≠ found ∧
          (∀ inner outer, r'.opened = inner ++ found :: outer → found ∉ inner →
            ∃ last, last.opened = outer ∧ calls (inner.length + 1) r' =
              (mismatches offset found inner ++ [.ok (some (.closing found))], last)) ∧
          (found ∉ r'.opened → ∀ n, ∃ last, last.opened = [] ∧ calls (r'.opened.length + n + 1) r' =
            (mismatches offset found r'.opened ++
              List.replicate (n + 1) (.error (.syntaxError offset (.notOpened found))), last)) := by
  obtain ⟨here, stop⟩ := stays_of_next step
  obtain ⟨nonempty, fails⟩ := next_eq_error_iff.1 step
  refine ⟨here, stop, ?_, ?_⟩
  · intro other
    cases fails with
    | noToken found =>
      have stays : next r.begun = .error _ r.begun := next_of_failsWith nonempty (.noToken found)
      exact ⟨rfl, calls_of_stays stays⟩
    | notOpened found bare =>
      have stays : next r.begun = .error _ r.begun :=
        next_of_failsWith nonempty (.notOpened found bare)
      exact ⟨rfl, calls_of_stays stays⟩
    | mismatched => exact absurd rfl (other _ _)
  · rintro offset expected name rfl
    generalize whole : Error.mismatchedTag offset expected name = e at fails
    cases fails with
    | @noToken fault => cases fault <;> cases whole
    | notOpened => cases whole
    | @mismatched name lexeme rest innermost outer found opened differ =>
      cases whole
      refine ⟨rfl, opened, differ, ?_, ?_⟩
      · intro inner outer' left other
        exact calls_of_mem found nonempty left other
      · intro absent n
        exact @calls_of_not_mem { r.begun with opened := outer } _ _ _ found nonempty absent n

theorem calls_again_twoInside :
    ∃ r r' last, Visits "<a>ü<b><c></a>".toList r ∧
      next r = .error (.mismatchedTag 11 ['c'] ['a']) r' ∧ last.opened = [] ∧
      calls 2 r' = ([.error (.mismatchedTag 11 ['b'] ['a']), .ok (some (.closing ['a']))], last) := by
  have text : next ⟨"ü<b><c></a>".toList, 3, 0, [['a']]⟩ =
    .ok (some (.text ['ü'])) ⟨"<b><c></a>".toList, 5, 3, [['a']]⟩ := rfl
  have visits : Visits "<a>ü<b><c></a>".toList ⟨"</a>".toList, 11, 8, [['c'], ['b'], ['a']]⟩ :=
    .returned (.returned (.returned (.returned .start
      (@next_bareTag ['a'] "ü<b><c></a>".toList [] 0 0 rfl)) text)
      (@next_bareTag ['b'] "<c></a>".toList [['a']] 5 3 rfl))
      (@next_bareTag ['c'] "</a>".toList [['b'], ['a']] 8 5 rfl)
  have step : next ⟨"</a>".toList, 11, 8, [['c'], ['b'], ['a']]⟩ =
    .error (.mismatchedTag 11 ['c'] ['a']) ⟨"</a>".toList, 11, 11, [['b'], ['a']]⟩ := rfl
  obtain ⟨-, -, -, mismatch⟩ := calls_again step
  obtain ⟨-, -, -, closes, -⟩ := mismatch _ _ _ rfl
  obtain ⟨last, closed, twice⟩ := closes [['b']] [] rfl (by decide)
  exact ⟨_, _, last, visits, step, closed, twice⟩

/-- The tag of another element fails, and is taken for that of the element around if it is tried
again. -/
theorem element_closed_by_retrying :
    ∃ r r' r'', Visits "<a><b></a>".toList r ∧
      next r = .error (.mismatchedTag 6 ['b'] ['a']) r' ∧ r'.depth ≠ r.depth ∧
      next r' = .ok (some (.closing ['a'])) r'' := by
  have visits : Visits "<a><b></a>".toList ⟨"</a>".toList, 6, 3, [['b'], ['a']]⟩ :=
    .returned (.returned .start
      (@next_bareTag ['a'] "<b></a>".toList [] 0 0 rfl))
      (@next_bareTag ['b'] "</a>".toList [['a']] 3 0 rfl)
  have step : next ⟨"</a>".toList, 6, 3, [['b'], ['a']]⟩ =
    .error (.mismatchedTag 6 ['b'] ['a']) ⟨"</a>".toList, 6, 6, [['a']]⟩ := rfl
  have again : next ⟨"</a>".toList, 6, 6, [['a']]⟩ =
    .ok (some (.closing ['a'])) ⟨[], 10, 6, []⟩ := rfl
  exact ⟨_, _, _, visits, step, by decide, again⟩

end SectionStore.Markup.Reader
