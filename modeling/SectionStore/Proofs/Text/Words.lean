import SectionStore.Text.Integer
import Mathlib.Data.List.Forall2
import Mathlib.Data.Nat.Digits.Defs

/-!
# Words in text

Which texts spell a word of 32 bits, said without the reader. A digit is one of the characters that
the library writes for its value, of either case (`IsDigit`), the digits make a number by their places
(`Spells`), and one plus may stand in front. Main statement: `word32?_eq_some_iff`.
-/

namespace SectionStore.Integer

/-- A digit and its value, in a radix up to sixteen. -/
def IsDigit (radix : Nat) (c : Char) (value : Nat) : Prop :=
  value < radix ∧ (c = Nat.digitChar value ∨ c = (Nat.digitChar value).toUpper)

/-- The text is a number: its digits, the last of them in the place of the ones, behind at most one
plus. -/
inductive Spells (radix : Nat) : List Char → Nat → Prop where
  | mk {sign text : List Char} {values : List Nat} (signed : sign = [] ∨ sign = ['+'])
      (nonempty : text ≠ []) (digits : List.Forall₂ (IsDigit radix) text values) :
      Spells radix (sign ++ text) (Nat.ofDigits radix values.reverse)

variable {radix limit read n value : Nat} {beyond : Fault} {c : Char} {text : List Char}

/-! ### Digits -/

theorem digitValue?_eq_some (found : digitValue? radix c = some value) :
    value < radix ∧ ('0' ≤ c ∧ c ≤ '9' ∧ value = c.toNat - '0'.toNat ∨
      'a' ≤ c ∧ c ≤ 'z' ∧ value = c.toNat - 'a'.toNat + 10 ∨
      'A' ≤ c ∧ c ≤ 'Z' ∧ value = c.toNat - 'A'.toNat + 10) := by
  simp only [digitValue?, Option.filter_eq_some_iff, decide_eq_true_eq] at found
  obtain ⟨found, below⟩ := found
  refine ⟨below, ?_⟩
  split at found
  · simp_all
  split at found
  · simp_all
  split at found
  · simp_all
  · cases found

/-- The characters for the values below sixteen are their digits in either case. -/
theorem digitValue?_digitChar (below : value < radix) (small : radix ≤ 16) :
    digitValue? radix (Nat.digitChar value) = some value ∧
      digitValue? radix (Nat.digitChar value).toUpper = some value := by
  have written : ∀ value < 16, digitValue? (value + 1) (Nat.digitChar value) = some value ∧
      digitValue? (value + 1) (Nat.digitChar value).toUpper = some value := by decide
  have wider {c : Char} (found : digitValue? (value + 1) c = some value) :
      digitValue? radix c = some value := by
    simp only [digitValue?, Option.filter_eq_some_iff, decide_eq_true_eq] at found ⊢
    exact ⟨found.1, below⟩
  obtain ⟨lower, upper⟩ := written value (by omega)
  exact ⟨wider lower, wider upper⟩

/-- A digit has the value that its character is written for. -/
theorem digitValue?_eq_some_iff (small : radix ≤ 16) :
    digitValue? radix c = some value ↔ IsDigit radix c value := by
  constructor
  · intro found
    obtain ⟨below, range⟩ := digitValue?_eq_some found
    refine ⟨below, ?_⟩
    simp only [Char.le_def, UInt32.le_iff_toNat_le] at range
    have lower : ∀ value < 16, 10 ≤ value →
        (Nat.digitChar value).toNat = 'a'.toNat + (value - 10) := by decide
    have upper : ∀ value < 16, 10 ≤ value →
        (Nat.digitChar value).toUpper.toNat = 'A'.toNat + (value - 10) := by decide
    rcases range with ⟨least, greatest, rfl⟩ | ⟨least, greatest, rfl⟩ | ⟨least, greatest, rfl⟩
    · have nine : '9'.val.toNat = '0'.val.toNat + 9 := rfl
      have ten : c.toNat - '0'.toNat < 10 := by
        show c.val.toNat - '0'.val.toNat < 10
        omega
      refine .inl (Char.toNat_inj.1 ?_)
      rw [Nat.toNat_digitChar_of_lt_ten ten]
      exact (Nat.add_sub_cancel' least).symm
    · refine .inl (Char.toNat_inj.1 ?_)
      rw [lower _ (by omega) (by omega), Nat.add_sub_cancel]
      exact (Nat.add_sub_cancel' least).symm
    · refine .inr (Char.toNat_inj.1 ?_)
      rw [upper _ (by omega) (by omega), Nat.add_sub_cancel]
      exact (Nat.add_sub_cancel' least).symm
  · rintro ⟨below, rfl | rfl⟩
    · exact (digitValue?_digitChar below small).1
    · exact (digitValue?_digitChar below small).2

/-- A character that is written for no value is no digit. -/
theorem not_isDigit (small : radix ≤ 16)
    (other : ∀ value < 16, c ≠ Nat.digitChar value ∧ c ≠ (Nat.digitChar value).toUpper) :
    ¬ IsDigit radix c value := by
  rintro ⟨below, written⟩
  obtain ⟨lower, upper⟩ := other value (by omega)
  exact written.elim lower upper

theorem exists_isDigit_of_mem {values : List Nat}
    (digits : List.Forall₂ (IsDigit radix) text values) (inside : c ∈ text) :
    ∃ value, IsDigit radix c value := by
  induction digits with
  | nil => cases inside
  | cons first _ ih =>
    rcases List.mem_cons.1 inside with rfl | inside
    · exact ⟨_, first⟩
    · exact ih inside

/-- A number holds digits, and a plus. -/
theorem Spells.exists_of_mem (spelled : Spells radix text n) (inside : c ∈ text) :
    c = '+' ∨ ∃ value, IsDigit radix c value := by
  cases spelled with
  | mk signed nonempty digits =>
    rcases List.mem_append.1 inside with inside | inside
    · rcases signed with rfl | rfl
      · cases inside
      · exact .inl (List.mem_singleton.1 inside)
    · exact .inr (exists_isDigit_of_mem digits inside)

/-! ### Numbers -/

/-- The number that digits continue another one to. -/
def continued (radix read : Nat) (values : List Nat) : Nat :=
  values.foldl (fun number value => number * radix + value) read

theorem ofDigits_reverse (radix : Nat) (values : List Nat) :
    Nat.ofDigits radix values.reverse = continued radix 0 values := by
  rw [Nat.ofDigits_eq_foldr, List.foldr_reverse, continued]
  congr 1
  funext number value
  rw [Nat.cast_id, Nat.mul_comm, Nat.add_comm]

theorem le_continued (positive : 0 < radix) (read : Nat) (values : List Nat) :
    read ≤ continued radix read values := by
  induction values generalizing read with
  | nil => exact Nat.le_refl read
  | cons value values ih =>
    have step : read ≤ read * radix + value :=
      Nat.le_add_right_of_le (Nat.le_mul_of_pos_right read positive)
    exact Nat.le_trans step (ih _)

/-- Digits are read as the number that they continue to, within the limit. -/
theorem digits_eq_ok_iff (small : radix ≤ 16) (within : read ≤ limit) :
    digits radix limit beyond read text = .ok n ↔
      ∃ values, List.Forall₂ (IsDigit radix) text values ∧ continued radix read values = n ∧
        n ≤ limit := by
  induction text generalizing read with
  | nil =>
    simp only [digits, List.forall₂_nil_left_iff, exists_eq_left, continued, List.foldl_nil,
      Except.ok.injEq]
    constructor
    · rintro rfl
      exact ⟨rfl, within⟩
    · exact fun same => same.1
  | cons c rest ih =>
    have digit (value : Nat) : digitValue? radix c = some value ↔ IsDigit radix c value :=
      digitValue?_eq_some_iff small
    simp only [List.forall₂_cons_left_iff]
    rw [digits]
    cases found : digitValue? radix c with
    | none =>
      constructor
      · intro read
        cases read
      · rintro ⟨_, ⟨value, values, first, -⟩, -⟩
        rw [(digit value).2 first] at found
        cases found
    | some value =>
      have first := (digit value).1 found
      dsimp only
      constructor
      · intro run
        split at run
        · rename_i still
          obtain ⟨values, others, number, small⟩ := (ih still).1 run
          exact ⟨value :: values, ⟨value, values, first, others, rfl⟩, number, small⟩
        · cases run
      · rintro ⟨_, ⟨value', values, first', others, rfl⟩, number, small⟩
        obtain rfl : value' = value := by
          have := (digit value').2 first'
          rw [found] at this
          exact (Option.some.inj this).symm
        have positive : 0 < radix := Nat.zero_lt_of_lt first.1
        have still : read * radix + value' ≤ limit :=
          Nat.le_trans (le_continued positive _ values) (number ▸ small)
        rw [if_pos still]
        exact (ih still).2 ⟨values, others, number, small⟩

theorem eq_some_iff_digits :
    (if text = [] then none else (digits radix limit beyond 0 text).toOption) = some n ↔
      text ≠ [] ∧ digits radix limit beyond 0 text = .ok n := by
  split
  · rename_i empty
    simp [empty]
  · rename_i nonempty
    cases digits radix limit beyond 0 text with
    | ok number => simp [nonempty, Except.toOption]
    | error fault => simp [Except.toOption]

/-- A plus is left out. -/
theorem word32?_plus_eq_some_iff :
    word32? radix ('+' :: text) = some n ↔
      text ≠ [] ∧ digits radix 0xffffffff .above 0 text = .ok n :=
  eq_some_iff_digits

theorem word32?_eq_some_iff_of_unsigned (unsigned : text.head? ≠ some '+') :
    word32? radix text = some n ↔
      text ≠ [] ∧ digits radix 0xffffffff .above 0 text = .ok n := by
  simp only [word32?]
  split
  · simp at unsigned
  · exact eq_some_iff_digits

/-- The words in text are the numbers of 32 bits that it spells. -/
theorem word32?_eq_some_iff (small : radix ≤ 16) :
    word32? radix text = some n ↔ Spells radix text n ∧ n < 2 ^ 32 := by
  have run (unsigned : List Char) : digits radix 0xffffffff .above 0 unsigned = .ok n ↔
      ∃ values, List.Forall₂ (IsDigit radix) unsigned values ∧
        Nat.ofDigits radix values.reverse = n ∧ n < 2 ^ 32 := by
    rw [digits_eq_ok_iff small (Nat.zero_le _)]
    simp only [ofDigits_reverse, Nat.lt_iff_le_pred (Nat.two_pow_pos 32), Nat.reducePow,
      Nat.reduceSub]
  constructor
  · intro read
    have spelled {sign unsigned : List Char} (signed : sign = [] ∨ sign = ['+'])
        (parts : unsigned ≠ [] ∧ digits radix 0xffffffff .above 0 unsigned = .ok n) :
        Spells radix (sign ++ unsigned) n ∧ n < 2 ^ 32 := by
      obtain ⟨values, each, rfl, word⟩ := (run unsigned).1 parts.2
      exact ⟨.mk signed parts.1 each, word⟩
    by_cases plus : text.head? = some '+'
    · obtain ⟨rest, rfl⟩ := List.head?_eq_some_iff.1 plus
      exact spelled (.inr rfl) (word32?_plus_eq_some_iff.1 read)
    · exact spelled (.inl rfl) ((word32?_eq_some_iff_of_unsigned plus).1 read)
  · rintro ⟨spelled, word⟩
    cases spelled with
    | @mk sign unsigned values signed nonempty each =>
      have found := (run unsigned).2 ⟨values, each, rfl, word⟩
      rcases signed with rfl | rfl
      · refine (word32?_eq_some_iff_of_unsigned ?_).2 ⟨nonempty, found⟩
        intro plus
        obtain ⟨rest, rfl⟩ := List.head?_eq_some_iff.1 plus
        obtain ⟨value, _, first, -⟩ := List.forall₂_cons_left_iff.1 each
        exact not_isDigit small (by decide) first
      · exact word32?_plus_eq_some_iff.2 ⟨nonempty, found⟩

end SectionStore.Integer
