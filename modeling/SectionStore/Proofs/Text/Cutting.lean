import SectionStore.Text.Cut

/-!
# Where a text is cut

What `Cut.cutAt?` and `Cut.cutAtChar?` find, said without them: `cutAt?_eq_some_iff` and
`cutAtChar?_eq_some_iff`. A mark may overlap what stands before it, so the first place where it
stands can begin inside that part. This cannot happen to a mark whose last character stands
nowhere else in it, and all marks of the markup are of this kind (`Closes`).

`span_append` says how a run of characters ends: where the first other one stands.
-/

namespace SectionStore.Cut

/-- A mark whose last character stands nowhere else in it. -/
def Closes (mark : List Char) : Prop :=
  ∃ body last, mark = body ++ [last] ∧ last ∉ body

/-- No character of the text begins with one of a kind. -/
def StopsAt (p : Char → Bool) (text : List Char) : Prop :=
  ∀ c ∈ text.head?, p c = false

theorem stopsAt_cons {p : Char → Bool} {c : Char} {text : List Char} :
    StopsAt p (c :: text) ↔ p c = false := by
  simp [StopsAt]

theorem stopsAt_append {p : Char → Bool} {text more : List Char} (nonempty : text ≠ []) :
    StopsAt p (text ++ more) ↔ StopsAt p text := by
  cases text with
  | nil => exact absurd rfl nonempty
  | cons c rest => simp [StopsAt]

theorem stopsAt_dropWhile (p : Char → Bool) (text : List Char) : StopsAt p (text.dropWhile p) := by
  intro c hc
  have := List.head?_dropWhile_not p text
  rw [Option.mem_def.1 hc] at this
  simpa using this

theorem takeWhile_eq_nil_of_stopsAt {p : Char → Bool} {text : List Char} (stop : StopsAt p text) :
    text.takeWhile p = [] := by
  cases text with
  | nil => rfl
  | cons c rest => simp [stopsAt_cons.1 stop]

theorem dropWhile_eq_self_of_stopsAt {p : Char → Bool} {text : List Char} (stop : StopsAt p text) :
    text.dropWhile p = text := by
  have parts := List.takeWhile_append_dropWhile (p := p) (l := text)
  rwa [takeWhile_eq_nil_of_stopsAt stop, List.nil_append] at parts

/-- A run ends before the first character of another kind. -/
theorem span_append {p : Char → Bool} {run rest : List Char} (all : ∀ c ∈ run, p c = true)
    (stop : StopsAt p rest) :
    (run ++ rest).takeWhile p = run ∧ (run ++ rest).dropWhile p = rest := by
  rw [List.takeWhile_append_of_pos all, List.dropWhile_append_of_pos all,
    takeWhile_eq_nil_of_stopsAt stop, dropWhile_eq_self_of_stopsAt stop, List.append_nil]
  exact ⟨rfl, rfl⟩

/-! ### Two places -/

/-- Of two places in a list one is in front of the other, unless they are the same. -/
theorem compare_places {α : Type} {before after before' after' : List α} {x y : α}
    (same : before ++ x :: after = before' ++ y :: after') :
    (before = before' ∧ x = y ∧ after = after') ∨
      (∃ inner, before' = before ++ x :: inner ∧ after = inner ++ y :: after') ∨
      ∃ inner, before = before' ++ y :: inner ∧ after' = inner ++ x :: after := by
  rcases List.append_eq_append_iff.1 same with ⟨inner, split, tail⟩ | ⟨inner, split, tail⟩
  · cases inner with
    | nil =>
      obtain ⟨rfl, rfl⟩ := List.cons.inj tail
      exact .inl ⟨by rw [split, List.append_nil], rfl, rfl⟩
    | cons z inner =>
      obtain ⟨rfl, rfl⟩ := List.cons.inj tail
      exact .inr (.inl ⟨inner, split, rfl⟩)
  · cases inner with
    | nil =>
      obtain ⟨rfl, rfl⟩ := List.cons.inj tail
      exact .inl ⟨by rw [split, List.append_nil], rfl, rfl⟩
    | cons z inner =>
      obtain ⟨rfl, rfl⟩ := List.cons.inj tail
      exact .inr (.inr ⟨inner, split, rfl⟩)

/-! ### Cutting at a character -/

theorem all_ne_of_not_mem {mark : Char} {text : List Char} (absent : mark ∉ text) :
    ∀ c ∈ text, (c != mark) = true := by
  intro c inside
  rw [bne_iff_ne]
  rintro rfl
  exact absent inside

/-- The run of other characters ends at the first place where the character stands. -/
theorem span_of_not_mem {mark : Char} {before after : List Char} (first : mark ∉ before) :
    (before ++ mark :: after).takeWhile (· != mark) = before ∧
      (before ++ mark :: after).dropWhile (· != mark) = mark :: after :=
  span_append (all_ne_of_not_mem first) (stopsAt_cons.2 (bne_self_eq_false mark))

theorem not_mem_of_cutAtChar? {mark : Char} {text before after : List Char}
    (h : cutAtChar? mark text = some (before, after)) : mark ∉ before := by
  unfold cutAtChar? at h
  split at h
  · cases h
  · cases h
    intro inside
    have := List.all_eq_true.1 List.all_takeWhile mark inside
    simp at this

/-- A text is cut at the first place where the character stands. -/
theorem cutAtChar?_eq_some_iff {mark : Char} {text before after : List Char} :
    cutAtChar? mark text = some (before, after) ↔
      text = before ++ mark :: after ∧ mark ∉ before := by
  constructor
  · intro h
    exact ⟨eq_of_cutAtChar? h, not_mem_of_cutAtChar? h⟩
  · rintro ⟨rfl, outside⟩
    rw [cutAtChar?, (span_of_not_mem outside).1, (span_of_not_mem outside).2]

/-- Where the character stands nowhere, nothing is cut. -/
theorem cutAtChar?_eq_none_iff {mark : Char} {text : List Char} :
    cutAtChar? mark text = none ↔ mark ∉ text := by
  constructor
  · intro uncut inside
    obtain ⟨before, after, rfl, first⟩ := List.eq_append_cons_of_mem inside
    rw [cutAtChar?_eq_some_iff.2 ⟨rfl, first⟩] at uncut
    cases uncut
  · intro absent
    cases cut : cutAtChar? mark text with
    | none => rfl
    | some parts =>
      refine absurd ?_ absent
      rw [eq_of_cutAtChar? cut]
      exact List.mem_append_right _ List.mem_cons_self

/-! ### Cutting at a mark -/

theorem isPrefixOf?_eq_none_iff {mark text : List Char} :
    mark.isPrefixOf? text = none ↔ ¬ mark <+: text := by
  constructor
  · rintro h ⟨after, rfl⟩
    rw [isPrefixOf?_append] at h
    cases h
  · intro h
    cases found : mark.isPrefixOf? text with
    | none => rfl
    | some after => exact absurd ⟨after, (eq_of_isPrefixOf? found).symm⟩ h

theorem not_infix_of_cutAt? {mark text before after : List Char} (nonempty : mark ≠ [])
    (h : cutAt? mark text = some (before, after)) : ¬ mark <:+: before := by
  induction text generalizing before with
  | nil =>
    obtain ⟨a, -, he⟩ := Option.map_eq_some_iff.1 h
    cases he
    simpa using nonempty
  | cons c rest ih =>
    simp only [cutAt?] at h
    split at h
    · cases h
      simpa using nonempty
    · rename_i notHere
      obtain ⟨⟨b, a⟩, ha, he⟩ := Option.map_eq_some_iff.1 h
      cases he
      rw [List.infix_cons_iff, not_or]
      refine ⟨fun here => isPrefixOf?_eq_none_iff.1 notHere ?_, ih ha⟩
      have whole : c :: rest = (c :: b) ++ (mark ++ a) := by simp [eq_of_cutAt? ha]
      exact whole ▸ here.trans (List.prefix_append _ _)

/-- A mark that reaches beyond a text holds the text's neighbour inside, not at its end. -/
theorem prefix_of_prefix_append {mark before after : List Char} (closes : Closes mark)
    (nonempty : before ≠ []) (h : mark <+: before ++ (mark ++ after)) : mark <+: before := by
  obtain ⟨body, last, rfl, outside⟩ := closes
  by_cases fits : (body ++ [last]).length ≤ before.length
  · exact List.prefix_of_prefix_length_le h (List.prefix_append _ _) fits
  · exfalso
    obtain ⟨inner, hin⟩ : before <+: body ++ [last] :=
      List.prefix_of_prefix_length_le (List.prefix_append _ _) h (by omega)
    -- what reaches beyond is the head of the mark itself, and it ends with the last character
    have overlap : inner <+: (body ++ [last]) ++ after := by
      rw [← hin, List.append_assoc] at h
      exact (List.prefix_append_right_inj before).1 (by simpa [← hin] using h)
    have shorter : inner.length < (body ++ [last]).length := by
      have := congrArg List.length hin
      have := List.length_pos_iff.2 nonempty
      simp only [List.length_append] at *
      omega
    have inBody : inner <+: body := by
      refine List.prefix_of_prefix_length_le overlap ?_ ?_
      · rw [List.append_assoc]
        exact List.prefix_append _ _
      · simp only [List.length_append, List.length_singleton] at shorter
        omega
    have nonemptyInner : inner ≠ [] := by
      rintro rfl
      have := congrArg List.length hin
      simp only [List.length_append, List.length_nil] at this fits
      omega
    have final : inner.getLast nonemptyInner = last := by
      have := congrArg List.getLast? hin
      rw [List.getLast?_append, List.getLast?_concat, List.getLast?_eq_some_getLast nonemptyInner,
        Option.some_or] at this
      exact Option.some.inj this
    exact outside (inBody.subset (final ▸ List.getLast_mem nonemptyInner))

theorem cutAt?_append_of_not_infix {mark before after : List Char} (closes : Closes mark)
    (absent : ¬ mark <:+: before) :
    cutAt? mark (before ++ (mark ++ after)) = some (before, after) := by
  induction before with
  | nil =>
    obtain ⟨body, last, rfl, -⟩ := closes
    have found := isPrefixOf?_append (body ++ [last]) after
    cases body with
    | nil => simp [cutAt?, isPrefixOf?_cons_cons, isPrefixOf?_nil]
    | cons c body =>
      simp only [List.nil_append, List.cons_append] at found ⊢
      rw [cutAt?, found]
  | cons c before ih =>
    rw [List.infix_cons_iff, not_or] at absent
    have notHere : mark.isPrefixOf? (c :: (before ++ (mark ++ after))) = none :=
      isPrefixOf?_eq_none_iff.2 fun here =>
        absent.1 (prefix_of_prefix_append closes (by simp) (by simpa using here))
    rw [List.cons_append, cutAt?, notHere, ih absent.2]
    rfl

/-- A text is cut at the first place where the mark stands. -/
theorem cutAt?_eq_some_iff {mark text before after : List Char} (closes : Closes mark) :
    cutAt? mark text = some (before, after) ↔
      text = before ++ mark ++ after ∧ ¬ mark <:+: before := by
  have nonempty : mark ≠ [] := by
    obtain ⟨body, last, rfl, -⟩ := closes
    simp
  constructor
  · intro h
    exact ⟨eq_of_cutAt? h, not_infix_of_cutAt? nonempty h⟩
  · rintro ⟨rfl, absent⟩
    rw [List.append_assoc]
    exact cutAt?_append_of_not_infix closes absent

end SectionStore.Cut
