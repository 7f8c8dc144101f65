import SectionStore.Markup.Fragment
import SectionStore.Proofs.Markup.Elements

/-!
# What makes content well formed

The check of a fragment looks at one token after the other. Of content whose tags are balanced it
refuses nothing but tokens that must not stand in a payload (`Token.isAdmitted`): declarations, and
references that stand for no character (`checkRest_eq_ok_iff`).

Content that was read inside a document is read as the same tokens where it stands alone
(`Reads.alone`). This is the way back of `Reader.Within`, and it needs no relation between the open
elements: content opens and closes its own elements only.
-/

namespace SectionStore.Markup

open Cut

/-- May the token stand in a payload? Its references must all stand for characters. -/
def Token.isAdmitted : Token → Bool
  | .declaration => false
  | .text content => (Escape.resolve content).isOk
  | .opening tag => tag.attributes.all fun a => (Escape.resolve a.raw).isOk
  | .comment | .cdata _ | .closing _ => true

theorem unescape_eq_ok_iff {start : Nat} {raw : List Char} :
    (unescape start raw).map (fun _ => ()) = .ok () ↔ (Escape.resolve raw).isOk = true := by
  rw [unescape]
  cases Escape.resolve raw with
  | ok text => exact ⟨fun _ => rfl, fun _ => rfl⟩
  | error fault =>
    constructor
    · intro resolved
      cases resolved
    · intro resolved
      cases resolved

theorem unescape_of_map {start : Nat} {raw : List Char} {e : Error}
    (failed : (unescape start raw).map (fun _ => ()) = .error e) : unescape start raw = .error e := by
  cases run : unescape start raw with
  | ok text =>
    rw [run] at failed
    cases failed
  | error e' =>
    rw [run] at failed
    cases failed
    rfl

theorem forM_eq_ok_iff {α ε : Type} {check : α → Except ε Unit} {xs : List α} :
    xs.forM check = .ok () ↔ ∀ x ∈ xs, check x = .ok () := by
  induction xs with
  | nil => simp [Pure.pure, Except.pure]
  | cons x xs ih =>
    have unrolled : (x :: xs).forM check = (check x >>= fun _ => xs.forM check) := rfl
    rw [unrolled, List.forall_mem_cons, ← ih]
    cases check x <;> simp [Bind.bind, Except.bind]

/-- A loop fails at the first element that fails its check. -/
theorem exists_of_forM_eq_error {α ε : Type} {check : α → Except ε Unit} {xs : List α} {e : ε}
    (failed : xs.forM check = .error e) : ∃ before x after, xs = before ++ x :: after ∧
      (∀ y ∈ before, check y = .ok ()) ∧ check x = .error e := by
  induction xs with
  | nil => cases failed
  | cons x xs ih =>
    have unrolled : (x :: xs).forM check = (check x >>= fun _ => xs.forM check) := rfl
    rw [unrolled] at failed
    cases first : check x with
    | error e' =>
      rw [first] at failed
      cases failed
      exact ⟨[], x, xs, rfl, List.forall_mem_nil _, first⟩
    | ok u =>
      rw [first] at failed
      obtain ⟨before, y, after, rfl, passed, stopped⟩ := ih failed
      exact ⟨x :: before, y, after, rfl, List.forall_mem_cons.2 ⟨first, passed⟩, stopped⟩

/-- Where a token begins does not decide whether it passes the check. -/
theorem checkToken_eq_ok_iff {start : Nat} {token : Token} :
    checkToken start token = .ok () ↔ token.isAdmitted = true := by
  cases token with
  | declaration => simp [checkToken, Token.isAdmitted]
  | text content => exact unescape_eq_ok_iff
  | opening tag =>
    rw [checkToken, forM_eq_ok_iff, Token.isAdmitted, List.all_eq_true]
    simp only [unescape_eq_ok_iff]
  | _ => simp [checkToken, Token.isAdmitted]

/-- Character data that ends before a text ends before the first part of it. -/
theorem Token.EndsBefore.of_append {token : Token} {rest more : List Char}
    (ends : token.EndsBefore (rest ++ more)) : token.EndsBefore rest := by
  cases token with
  | text content =>
    cases rest with
    | nil => simp [Token.EndsBefore, StopsAt]
    | cons c rest => exact (stopsAt_append (List.cons_ne_nil c rest)).1 ends
  | _ => trivial

namespace Reader

variable {r r' part whole whole' : Reader} {l : Lexeme} {inner lexemes : List Lexeme}
  {more tail : List Char}

/-! ### Content alone -/

/-- A token stands where the text goes on with it, and moves the elements that are open there. -/
theorem exists_step {token : Token} {text : List Char} {opened : List (List Char)}
    (form : TokenForm token text) (ends : token.EndsBefore tail)
    (moves : token.Moves part.opened opened) (here : part.rest = text ++ tail) :
    ∃ part', nextScanned part = .ok (some ⟨token, text, part'.rest⟩) part' ∧
      part'.rest = tail ∧ part'.opened = opened := by
  have nonempty : part.rest ≠ [] := by
    rw [here]
    exact List.append_ne_nil_of_left_ne_nil form.ne_nil _
  have found : scan part.rest = .ok ⟨token, text, tail⟩ :=
    (scan_eq_ok_iff nonempty).2 ⟨form, ends, here⟩
  exact ⟨part.pass ⟨token, text, tail⟩ opened, step_of_moves nonempty found moves, rfl, rfl⟩

/-- A token that is read in the document is read in the part that ends later. -/
theorem step_alone {opened : List (List Char)}
    (step : nextScanned whole = .ok (some ⟨l.token, l.text, whole'.rest⟩) whole')
    (behind : whole'.rest = tail ++ more) (moves : l.token.Moves part.opened opened)
    (here : part.rest = l.text ++ tail) :
    ∃ part', nextScanned part = .ok (some ⟨l.token, l.text, part'.rest⟩) part' ∧
      part'.rest = tail ∧ part'.opened = opened := by
  obtain ⟨nonempty, found, -⟩ := nextScanned_eq_some step
  obtain ⟨form, ends, -⟩ := (scan_eq_ok_iff nonempty).1 found
  exact exists_step form (behind ▸ ends).of_append moves here

/-- Content that is read in a document is read where it stands alone, with any text behind it that
the document goes on with. -/
theorem reads_of_content (content : Content inner) (reads : Reads whole inner whole')
    (behind : whole'.rest = tail ++ more) (here : part.rest = spell inner ++ tail) :
    ∃ part', Reads part inner part' ∧ part'.rest = tail ∧ part'.opened = part.opened := by
  induction content generalizing whole whole' part tail more with
  | nil => exact ⟨part, .nil part, here, rfl⟩
  | @leaf l others leaf content ih =>
    obtain ⟨whole₁, step, reads⟩ := reads_cons_iff.1 reads
    have rest : whole₁.rest = (spell others ++ tail) ++ more := by
      rw [reads.rest_eq, behind, List.append_assoc]
    obtain ⟨part₁, step', here₁, opened₁⟩ := step_alone step rest (.leaf leaf)
      (here.trans (List.append_assoc _ _ _))
    obtain ⟨part', reads', here', opened'⟩ := ih reads behind here₁
    exact ⟨part', reads_cons_iff.2 ⟨part₁, step', reads'⟩, here', opened'.trans opened₁⟩
  | @element tag opening closing inside others opens content rest ih ih' =>
    obtain ⟨whole₁, step, reads⟩ := reads_cons_iff.1 reads
    obtain ⟨whole₂, within, reads⟩ := reads_append_iff.1 reads
    obtain ⟨whole₃, step', reads⟩ := reads_cons_iff.1 reads
    -- what follows the opening tag, the content and the closing tag, in turn
    have after : whole₃.rest = (spell others ++ tail) ++ more := by
      rw [reads.rest_eq, behind, List.append_assoc]
    have middle : whole₂.rest = (closing ++ (spell others ++ tail)) ++ more := by
      rw [(reads_cons_iff.2 ⟨whole₃, step', .nil whole₃⟩ : Reads whole₂ [_] whole₃).rest_eq, after]
      simp
    have before : whole₁.rest = (spell inside ++ (closing ++ (spell others ++ tail))) ++ more := by
      rw [within.rest_eq, middle]
      simp
    have here : part.rest = opening ++ (spell inside ++ (closing ++ (spell others ++ tail))) := by
      simpa using here
    obtain ⟨part₁, first, here₁, opened₁⟩ := step_alone step before (.opening opens) here
    obtain ⟨part₂, reads₂, here₂, opened₂⟩ := ih within middle here₁
    have moves : Token.Moves (.closing tag.name) part₂.opened part.opened := by
      rw [opened₂, opened₁]
      exact .closing
    obtain ⟨part₃, last, here₃, opened₃⟩ := step_alone step' after moves here₂
    obtain ⟨part', reads', here', opened'⟩ := ih' reads behind here₃
    refine ⟨part', ?_, here', opened'.trans opened₃⟩
    exact reads_cons_iff.2 ⟨part₁, first,
      reads_append_iff.2 ⟨part₂, reads₂, reads_cons_iff.2 ⟨part₃, last, reads'⟩⟩⟩

/-- Content of a document that is read alone comes to an end with no element open. -/
theorem Reads.alone (reads : Reads whole inner whole') (content : Content inner) :
    ∃ r, Reads (.ofText (spell inner)) inner r ∧ r.rest = [] ∧ r.opened = [] :=
  reads_of_content content reads (List.nil_append _).symm (List.append_nil _).symm

/-! ### The check -/

theorem checkRest_eq {result : EStateM.Result Error Reader (Option (Scanned Token))}
    (step : nextScanned r = result) :
    checkRest r = match result with
      | .error e _ => .error e
      | .ok none r' =>
        match r'.endError? with
        | none => .ok ()
        | some e => .error e
      | .ok (some scanned) r' =>
        match checkToken r'.tokenStart scanned.value with
        | .error e => .error e
        | .ok () => checkRest r' := by
  rw [checkRest]
  split
  all_goals
    rename_i found
    obtain rfl := step.symm.trans found
    rfl

theorem checkRest_of_step {scanned : Scanned Token}
    (step : nextScanned r = .ok (some scanned) r') :
    checkRest r = match checkToken r'.tokenStart scanned.value with
      | .error e => .error e
      | .ok () => checkRest r' :=
  checkRest_eq step

theorem checkRest_of_ended (ended : r.rest = []) :
    checkRest r = match r.endError? with
      | none => .ok ()
      | some e => .error e :=
  checkRest_eq (nextScanned_eq_none_iff.2 ⟨ended, rfl⟩)

/-- How the check of a fragment comes to an end at a reader. -/
inductive EndsWith (r : Reader) : Except Error Unit → Prop where
  | accepted (ended : r.rest = []) (closed : r.opened = []) : EndsWith r (.ok ())
  | unread {r' : Reader} {e : Error} (step : nextScanned r = .error e r') : EndsWith r (.error e)
  | unclosed {e : Error} (ended : r.rest = []) (left : r.endError? = some e) :
      EndsWith r (.error e)
  | refused {scanned : Scanned Token} {r' : Reader} {e : Error}
      (step : nextScanned r = .ok (some scanned) r')
      (failed : checkToken r'.tokenStart scanned.value = .error e) : EndsWith r (.error e)

/-- The check reads tokens that pass it, up to where it comes to an end. -/
theorem exists_of_checkRest (r : Reader) :
    ∃ lexemes r', Reads r lexemes r' ∧ AllOf Token.isAdmitted lexemes ∧
      EndsWith r' (checkRest r) := by
  induction hn : r.left using Nat.strongRecOn generalizing r with
  | ind n ih =>
    subst hn
    cases step : nextScanned r with
    | error e r' =>
      rw [checkRest_eq step]
      exact ⟨[], r, .nil r, allOf_nil _, .unread step⟩
    | ok found r' =>
      cases found with
      | none =>
        obtain ⟨ended, -⟩ := nextScanned_eq_none_iff.1 step
        refine ⟨[], r, .nil r, allOf_nil _, ?_⟩
        rw [checkRest_of_ended ended]
        cases left : r.endError? with
        | none => exact .accepted ended (endError?_eq_none_iff.1 left)
        | some e => exact .unclosed ended left
      | some scanned =>
        rw [checkRest_of_step step]
        cases checked : checkToken r'.tokenStart scanned.value with
        | error e => exact ⟨[], r, .nil r, allOf_nil _, .refused step checked⟩
        | ok passed =>
          obtain ⟨lexemes, r₁, reads, admitted, ends⟩ := ih _ (left_lt step) r' rfl
          exact ⟨_, r₁, .cons step reads,
            allOf_cons.2 ⟨checkToken_eq_ok_iff.1 checked, admitted⟩, ends⟩

theorem exists_of_checkFragment (text : List Char) :
    ∃ lexemes r, Reads (.ofText text) lexemes r ∧ AllOf Token.isAdmitted lexemes ∧
      EndsWith r (checkFragment text) :=
  exists_of_checkRest _

/-- Text that is read to its end with no element open passes the check if all its tokens do. -/
theorem checkRest_eq_ok_iff (reads : Reads r lexemes r') (ended : r'.rest = [])
    (closed : r'.opened = []) : checkRest r = .ok () ↔ AllOf Token.isAdmitted lexemes := by
  induction lexemes generalizing r with
  | nil =>
    rw [reads_nil_iff] at reads
    subst reads
    rw [checkRest_of_ended ended, endError?_eq_none_iff.2 closed]
    exact ⟨fun _ => allOf_nil _, fun _ => rfl⟩
  | cons l lexemes ih =>
    obtain ⟨r₁, step, others⟩ := reads_cons_iff.1 reads
    rw [checkRest_of_step step, allOf_cons, ← ih others,
      ← @checkToken_eq_ok_iff r₁.tokenStart l.token]
    cases checkToken r₁.tokenStart l.token <;> simp

end Reader

end SectionStore.Markup
