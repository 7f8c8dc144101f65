import SectionStore.Text.Integer
import SectionStore.Text.WhiteSpace

/-!
# Decimal text

An integer of 64 bits is read back from its decimal text (`int64?_decimal`). The reader takes one
digit after the other and refuses the first that takes it beyond the limit; as long as the limit
holds, it computes the number that the digits make (`digits_of_le`). Decimal text consists of digits
and a sign, so neither white space nor a mark of a tag stands in it.
-/

namespace SectionStore.Integer

theorem toNat_of_isDigit {c : Char} (digit : c.isDigit = true) :
    '0'.toNat ≤ c.toNat ∧ c.toNat ≤ '9'.toNat := by
  simp only [Char.isDigit, Bool.and_eq_true, decide_eq_true_eq] at digit
  exact ⟨UInt32.le_iff_toNat_le.1 digit.1, UInt32.le_iff_toNat_le.1 digit.2⟩

theorem digitValue?_of_isDigit {c : Char} (digit : c.isDigit = true) :
    digitValue? 10 c = some (c.toNat - '0'.toNat) := by
  obtain ⟨least, greatest⟩ := toNat_of_isDigit digit
  have inside : '0' ≤ c ∧ c ≤ '9' := by
    simpa [Char.isDigit, Char.le_def] using digit
  have below : c.toNat - '0'.toNat < 10 := by
    have nine : '9'.toNat = '0'.toNat + 9 := rfl
    omega
  simp only [digitValue?, if_pos inside, Option.filter_some, below, decide_true, if_true]

theorem le_ofDigitChars (text : List Char) (read : Nat) :
    read ≤ Nat.ofDigitChars 10 text read := by
  induction text generalizing read with
  | nil => exact Nat.le_refl _
  | cons c rest ih =>
    rw [Nat.ofDigitChars_cons]
    exact Nat.le_trans (by omega) (ih _)

/-- Within the limit, the reader computes the number that the digits make. -/
theorem digits_of_le {limit read : Nat} {beyond : Fault} {text : List Char}
    (digit : ∀ c ∈ text, c.isDigit = true) (within : Nat.ofDigitChars 10 text read ≤ limit) :
    digits 10 limit beyond read text = .ok (Nat.ofDigitChars 10 text read) := by
  induction text generalizing read with
  | nil => rfl
  | cons c rest ih =>
    obtain ⟨first, others⟩ := List.forall_mem_cons.1 digit
    rw [Nat.ofDigitChars_cons] at within ⊢
    have sofar : read * 10 + (c.toNat - '0'.toNat) = 10 * read + (c.toNat - '0'.toNat) := by omega
    have still := Nat.le_trans (le_ofDigitChars rest _) within
    simp only [digits, digitValue?_of_isDigit first, sofar, if_pos still]
    exact ih others within

theorem isDigit_of_mem {n : Nat} {c : Char} (inside : c ∈ Nat.toDigits 10 n) :
    c.isDigit = true :=
  Nat.isDigit_of_mem_toDigits (by decide) (by decide) inside

theorem digits_toDigits {limit n : Nat} {beyond : Fault} (within : n ≤ limit) :
    digits 10 limit beyond 0 (Nat.toDigits 10 n) = .ok n := by
  have inside : Nat.ofDigitChars 10 (Nat.toDigits 10 n) 0 ≤ limit := by
    rwa [Nat.ofDigitChars_ten_toDigits]
  calc digits 10 limit beyond 0 (Nat.toDigits 10 n)
    _ = .ok (Nat.ofDigitChars 10 (Nat.toDigits 10 n) 0) :=
      digits_of_le (fun _ => isDigit_of_mem) inside
    _ = .ok n := congrArg _ Nat.ofDigitChars_ten_toDigits

/-- The decimal text of a number begins with a digit. -/
theorem exists_toDigits_eq_cons (n : Nat) :
    ∃ c rest, Nat.toDigits 10 n = c :: rest ∧ c.isDigit = true := by
  cases text : Nat.toDigits 10 n with
  | nil => exact absurd text Nat.toDigits_ne_nil
  | cons c rest => exact ⟨c, rest, rfl, isDigit_of_mem (text ▸ List.mem_cons_self)⟩

/-- Without a sign the text is all digits. -/
theorem int64?_of_isDigit {c : Char} {rest : List Char} (digit : c.isDigit = true) :
    int64? (c :: rest) = (digits 10 0x7fffffffffffffff .above 0 (c :: rest)).map Int.ofNat := by
  unfold int64?
  split <;> simp_all [Char.isDigit]

theorem int64?_negative {c : Char} {rest : List Char} :
    int64? ('-' :: c :: rest) =
      (digits 10 0x8000000000000000 .below 0 (c :: rest)).map fun n => -(n : Int) :=
  rfl

/-- An integer of 64 bits is read back from its decimal text. -/
theorem int64?_decimal {n : Int} (least : int64Min ≤ n) (greatest : n ≤ int64Max) :
    int64? (decimal n) = .ok n := by
  cases n with
  | ofNat m =>
    have within : m ≤ 0x7fffffffffffffff := by
      simp only [int64Max, Int.ofNat_eq_natCast] at greatest
      omega
    obtain ⟨c, rest, text, digit⟩ := exists_toDigits_eq_cons m
    have run : digits 10 0x7fffffffffffffff .above 0 (Nat.toDigits 10 m) = .ok m :=
      digits_toDigits within
    rw [text] at run
    rw [decimal, text, int64?_of_isDigit digit, run]
    rfl
  | negSucc m =>
    have within : m + 1 ≤ 0x8000000000000000 := by
      simp only [int64Min] at least
      omega
    obtain ⟨c, rest, text, digit⟩ := exists_toDigits_eq_cons (m + 1)
    have run : digits 10 0x8000000000000000 .below 0 (Nat.toDigits 10 (m + 1)) = .ok (m + 1) :=
      digits_toDigits within
    rw [text] at run
    rw [decimal, text, int64?_negative, run]
    rfl

theorem mem_decimal {n : Int} {c : Char} (inside : c ∈ decimal n) :
    c = '-' ∨ c.isDigit = true := by
  cases n with
  | ofNat m => exact .inr (isDigit_of_mem inside)
  | negSucc m => exact (List.mem_cons.1 inside).imp_right isDigit_of_mem

theorem not_isWhite_of_isDigit {c : Char} (digit : c.isDigit = true) :
    ¬ WhiteSpace.isWhite c = true := by
  obtain ⟨least, greatest⟩ := toNat_of_isDigit digit
  have apart : ∀ r ∈ WhiteSpace.ranges, r.2 ≤ '0'.toNat ∨ '9'.toNat < r.1 := by decide
  intro white
  obtain ⟨r, mem, above, below⟩ := WhiteSpace.isWhite_iff.1 white
  rcases apart r mem with before | behind <;> omega

/-- There is no white space in decimal text to be taken off. -/
theorem trim_decimal (n : Int) : WhiteSpace.trim (decimal n) = decimal n := by
  have black : ∀ c ∈ decimal n, ¬ WhiteSpace.isWhite c = true := by
    intro c inside
    rcases mem_decimal inside with rfl | digit
    · decide
    · exact not_isWhite_of_isDigit digit
  have keeps {text : List Char} (black : ∀ c ∈ text, ¬ WhiteSpace.isWhite c = true) :
      text.dropWhile WhiteSpace.isWhite = text := by
    cases text with
    | nil => rfl
    | cons c rest => exact List.dropWhile_cons_of_neg (black c List.mem_cons_self)
  rw [WhiteSpace.trim, keeps black, keeps fun c inside => black c (List.mem_reverse.1 inside),
    List.reverse_reverse]

/-- A character that is neither a digit nor a hyphen stands in no decimal text. -/
theorem not_mem_decimal {c : Char} (other : c.isDigit = false) (unsigned : c ≠ '-') (n : Int) :
    c ∉ decimal n := by
  intro inside
  rcases mem_decimal inside with rfl | digit
  · exact unsigned rfl
  · rw [other] at digit
    cases digit

end SectionStore.Integer
