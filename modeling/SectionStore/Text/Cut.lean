/-!
# Cutting a text

Three ways to divide a text in two: at the first place where a mark stands (`cutAt?`), at a single
character (`cutAtChar?`), and where a run of characters ends (`List.takeWhile`, `List.dropWhile`).
The parts and the mark are the text again (`eq_of_cutAt?`), and the mark stands nowhere earlier.
-/

namespace SectionStore.Cut

/-- The text before and after the first place where `mark` stands. -/
def cutAt? (mark : List Char) : List Char → Option (List Char × List Char)
  | [] => (mark.isPrefixOf? []).map fun after => ([], after)
  | c :: rest =>
    match mark.isPrefixOf? (c :: rest) with
    | some after => some ([], after)
    | none => (cutAt? mark rest).map fun parts => (c :: parts.1, parts.2)

/-- The text before and after the first place where `mark` stands. -/
def cutAtChar? (mark : Char) (text : List Char) : Option (List Char × List Char) :=
  match text.dropWhile (· != mark) with
  | [] => none
  | _ :: after => some (text.takeWhile (· != mark), after)

theorem isPrefixOf?_nil (text : List Char) : ([] : List Char).isPrefixOf? text = some text := rfl

theorem isPrefixOf?_cons_nil (m : Char) (mark : List Char) : (m :: mark).isPrefixOf? [] = none := rfl

theorem isPrefixOf?_cons_cons (m c : Char) (mark text : List Char) :
    (m :: mark).isPrefixOf? (c :: text) = if m == c then mark.isPrefixOf? text else none := rfl

theorem eq_of_isPrefixOf? {mark text after : List Char} (h : mark.isPrefixOf? text = some after) :
    text = mark ++ after := by
  induction mark generalizing text with
  | nil =>
    rw [isPrefixOf?_nil] at h
    exact Option.some.inj h
  | cons m mark ih =>
    cases text with
    | nil =>
      rw [isPrefixOf?_cons_nil] at h
      cases h
    | cons c text =>
      rw [isPrefixOf?_cons_cons] at h
      split at h
      · rename_i hm
        rw [beq_iff_eq] at hm
        rw [hm, ih h, List.cons_append]
      · cases h

theorem isPrefixOf?_append (mark after : List Char) :
    mark.isPrefixOf? (mark ++ after) = some after := by
  induction mark with
  | nil => rfl
  | cons m mark ih => rw [List.cons_append, isPrefixOf?_cons_cons, if_pos BEq.rfl, ih]

theorem eq_of_cutAt? {mark text before after : List Char}
    (h : cutAt? mark text = some (before, after)) : text = before ++ mark ++ after := by
  induction text generalizing before with
  | nil =>
    obtain ⟨a, ha, he⟩ := Option.map_eq_some_iff.1 h
    cases he
    simpa using eq_of_isPrefixOf? ha
  | cons c rest ih =>
    simp only [cutAt?] at h
    split at h
    · rename_i a ha
      cases h
      simpa using eq_of_isPrefixOf? ha
    · obtain ⟨⟨b, a⟩, ha, he⟩ := Option.map_eq_some_iff.1 h
      cases he
      simp [ih ha]

theorem eq_of_cutAtChar? {mark : Char} {text before after : List Char}
    (h : cutAtChar? mark text = some (before, after)) : text = before ++ mark :: after := by
  unfold cutAtChar? at h
  split at h
  · cases h
  · rename_i c rest hd
    cases h
    have hc : c = mark := by
      have := List.head?_dropWhile_not (· != mark) text
      simp [hd] at this
      exact this
    subst hc
    rw [← hd, List.takeWhile_append_dropWhile]

theorem length_lt_of_cutAtChar? {mark : Char} {text before after : List Char}
    (h : cutAtChar? mark text = some (before, after)) : after.length < text.length := by
  rw [eq_of_cutAtChar? h]
  simp
  omega

theorem length_dropWhile_le (p : Char → Bool) (text : List Char) :
    (text.dropWhile p).length ≤ text.length :=
  (List.dropWhile_suffix p).length_le

end SectionStore.Cut
