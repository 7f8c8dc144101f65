/-!
# Bounded integers in text

Readers for integers of fixed width. `digits` reads the digits one after the other and stops at
the first that is none or that takes the number beyond the limit, so of two faults the leftmost is
reported. `int64?` allows one sign of either kind, `word32?` one plus.
-/

namespace SectionStore.Integer

/-- Why a text is no integer of the width asked for. -/
inductive Fault where
  | empty
  | digit
  | above
  | below
  deriving DecidableEq, Repr

/-- The text of a fault. -/
def Fault.message : Fault → String
  | .empty => "cannot parse integer from empty string"
  | .digit => "invalid digit found in string"
  | .above => "number too large to fit in target type"
  | .below => "number too small to fit in target type"

/-- The value of a digit, letters of either case standing for ten and more. -/
def digitValue? (radix : Nat) (c : Char) : Option Nat :=
  let value :=
    if '0' ≤ c ∧ c ≤ '9' then some (c.toNat - '0'.toNat)
    else if 'a' ≤ c ∧ c ≤ 'z' then some (c.toNat - 'a'.toNat + 10)
    else if 'A' ≤ c ∧ c ≤ 'Z' then some (c.toNat - 'A'.toNat + 10)
    else none
  value.filter (· < radix)

/-- The number that the digits continue `read` to, as long as it stays within `limit`. -/
def digits (radix limit : Nat) (beyond : Fault) (read : Nat) : List Char → Except Fault Nat
  | [] => .ok read
  | c :: rest =>
    match digitValue? radix c with
    | none => .error .digit
    | some d =>
      if read * radix + d ≤ limit then digits radix limit beyond (read * radix + d) rest
      else .error beyond

/-- The least and the greatest signed integer of 64 bits. -/
def int64Min : Int := -0x8000000000000000
def int64Max : Int := 0x7fffffffffffffff

/-- The signed integer of 64 bits that a text spells in decimal. -/
def int64? : List Char → Except Fault Int
  | [] => .error .empty
  | ['+'] => .error .digit
  | ['-'] => .error .digit
  | '+' :: text => (digits 10 0x7fffffffffffffff .above 0 text).map Int.ofNat
  | '-' :: text => (digits 10 0x8000000000000000 .below 0 text).map fun n => -(n : Int)
  | text => (digits 10 0x7fffffffffffffff .above 0 text).map Int.ofNat

/-- The word of 32 bits that a text spells in the given radix. -/
def word32? (radix : Nat) (text : List Char) : Option Nat :=
  let unsigned := match text with
    | '+' :: rest => rest
    | _ => text
  if unsigned = [] then none else (digits radix 0xffffffff .above 0 unsigned).toOption

/-- The decimal text of an integer. -/
def decimal (n : Int) : List Char :=
  match n with
  | .ofNat m => Nat.toDigits 10 m
  | .negSucc m => '-' :: Nat.toDigits 10 (m + 1)

example : int64? ['-', '0', '7'] = .ok (-7) := by rfl
example : int64? ['-'] = .error .digit := by rfl

end SectionStore.Integer
