/-!
# White space

`isWhite` is the Unicode property `White_Space`, which is more than core's `Char.isWhitespace`
(`isWhite_of_isWhitespace`). `trim` takes such characters off both ends of a text.
-/

namespace SectionStore.WhiteSpace

/-- The half-open ranges of the code points that are white space. -/
def ranges : List (Nat × Nat) :=
  [(0x9, 0xE), (0x20, 0x21), (0x85, 0x86), (0xA0, 0xA1), (0x1680, 0x1681), (0x2000, 0x200B),
   (0x2028, 0x202A), (0x202F, 0x2030), (0x205F, 0x2060), (0x3000, 0x3001)]

def isWhite (c : Char) : Bool :=
  ranges.any fun r => decide (r.1 ≤ c.toNat) && decide (c.toNat < r.2)

theorem isWhite_iff {c : Char} : isWhite c = true ↔ ∃ r ∈ ranges, r.1 ≤ c.toNat ∧ c.toNat < r.2 := by
  simp [isWhite]

theorem isWhite_of_isWhitespace {c : Char} (h : c.isWhitespace = true) : isWhite c = true := by
  simp only [Char.isWhitespace, Bool.or_eq_true, decide_eq_true_eq] at h
  rcases h with ((rfl | rfl) | rfl) | rfl <;> decide

/-- The text without the white space at its ends. -/
def trim (text : List Char) : List Char :=
  ((text.dropWhile isWhite).reverse.dropWhile isWhite).reverse

example : trim [' ', 'a', ' ', 'b', '\u3000', '\n'] = ['a', ' ', 'b'] := by decide

end SectionStore.WhiteSpace
