import SectionStore.Text.Integer
import SectionStore.Toml.Lexeme

/-!
# Numbers and moments of a TOML document

Integers are of 64 bits. A single underscore may stand between two digits. Of floating-point numbers
and of moments only the form is of interest, and for the former whether a positive one is too great
for a number of 64 bits.
-/

namespace SectionStore.Toml

/-- The rest of a run of digits, without the underscores between them. -/
def digitRun? (isDigit : Char → Bool) : Step (List Char)
  | [] => some ([], [])
  | ['_'] => none
  | '_' :: c :: rest =>
    if isDigit c then (digitRun? isDigit rest).map fun r => (c :: r.1, r.2) else none
  | c :: rest =>
    if isDigit c then (digitRun? isDigit rest).map fun r => (c :: r.1, r.2)
    else some ([], c :: rest)

/-- A run of at least one digit. -/
def digits? (isDigit : Char → Bool) : Step (List Char)
  | c :: rest =>
    if isDigit c then (digitRun? isDigit rest).map fun r => (c :: r.1, r.2) else none
  | [] => none

/-- A sign, if there is one. -/
def sign : List Char → List Char × List Char
  | '+' :: rest => (['+'], rest)
  | '-' :: rest => (['-'], rest)
  | text => ([], text)

/-- The sign and the digits of a decimal integer, which has no leading zero. -/
def decimal? (text : List Char) : Option ((List Char × List Char) × List Char) :=
  let (sign, unsigned) := sign text
  match unsigned with
  | '0' :: rest => some ((sign, ['0']), rest)
  | _ => (digits? Char.isDigit unsigned).map fun r => ((sign, r.1), r.2)

/-- The natural number that digits of the given radix spell. -/
def natOfDigits (radix : Nat) (digits : List Char) : Nat :=
  digits.foldl (fun n c => radix * n + (hexDigit? c).getD 0) 0

def isHexDigit (c : Char) : Bool := (hexDigit? c).isSome
def isOctalDigit (c : Char) : Bool := '0' ≤ c && c ≤ '7'
def isBinaryDigit (c : Char) : Bool := c = '0' || c = '1'

/-- A number without sign in a radix other than ten. -/
def radixInteger? (radix : Nat) (isDigit : Char → Bool) (text : List Char) :
    Option (Int × List Char) := do
  let (digits, rest) ← digits? isDigit text
  let n := natOfDigits radix digits
  if n < 0x8000000000000000 then some ((n : Int), rest) else none

/-- An integer. -/
def integer? (text : List Char) : Option (Int × List Char) :=
  match text with
  | '0' :: 'x' :: rest => radixInteger? 16 isHexDigit rest
  | '0' :: 'o' :: rest => radixInteger? 8 isOctalDigit rest
  | '0' :: 'b' :: rest => radixInteger? 2 isBinaryDigit rest
  | _ => do
    let ((sign, digits), rest) ← decimal? text
    return (← (Integer.int64? (sign ++ digits)).toOption, rest)

/-! ### Floating point -/

/-- The least number that is rounded to infinity. -/
def infiniteFrom : Nat :=
  Nat.pow 2 1024 - Nat.pow 2 970

/-- Is `n * 10 ^ exponent` rounded to infinity? The exponent is compared with the number of digits
first, so that no power of ten is computed that is far from the limit. -/
def isInfinite (n : Nat) (exponent : Int) : Bool :=
  let magnitude := (Nat.toDigits 10 n).length + exponent
  if n = 0 ∨ magnitude < 300 then false
  else if magnitude > 400 then true
  else if 0 ≤ exponent then decide (infiniteFrom ≤ n * Nat.pow 10 exponent.toNat)
  else decide (infiniteFrom * Nat.pow 10 (-exponent).toNat ≤ n)

/-- The digits behind the point, if there is one. -/
def fractionPart? : List Char → Option (Option (List Char) × List Char)
  | '.' :: rest => (digits? Char.isDigit rest).map fun r => (some r.1, r.2)
  | text => some (none, text)

/-- The exponent, if there is one. -/
def exponentPart? (text : List Char) : Option (Option Int × List Char) :=
  match text with
  | c :: rest =>
    if c = 'e' ∨ c = 'E' then do
      let (sign, unsigned) := sign rest
      let (digits, after) ← digits? Char.isDigit unsigned
      let n : Int := natOfDigits 10 digits
      return (some (if sign = ['-'] then -n else n), after)
    else some (none, text)
  | [] => some (none, [])

/-- A number with a fraction or an exponent. -/
def decimalFloat? (text : List Char) : Option (List Char) := do
  let ((sign, whole), rest) ← decimal? text
  let (fraction, rest) ← fractionPart? rest
  let (exponent, rest) ← exponentPart? rest
  if fraction.isNone ∧ exponent.isNone then none
  else
    let places := fraction.getD []
    let n := natOfDigits 10 (whole ++ places)
    if sign ≠ ['-'] ∧ isInfinite n (exponent.getD 0 - places.length) then none else some rest

/-- A floating-point number; gives the text behind it. -/
def float? (text : List Char) : Option (List Char) :=
  match (sign text).2 with
  | 'i' :: 'n' :: 'f' :: rest => some rest
  | 'n' :: 'a' :: 'n' :: rest => some rest
  | _ => decimalFloat? text

/-! ### Moments -/

/-- A number of two digits. -/
def twoDigits? : Step Nat
  | a :: b :: rest =>
    if a.isDigit ∧ b.isDigit then some (natOfDigits 10 [a, b], rest) else none
  | _ => none

/-- How many days a month has. -/
def daysOf (year month : Nat) : Nat :=
  if month = 2 then
    if (year % 4 = 0 ∧ year % 100 ≠ 0) ∨ year % 400 = 0 then 29 else 28
  else if month ∈ [4, 6, 9, 11] then 30 else 31

/-- A day; gives the text behind it. -/
def day? (text : List Char) : Option (List Char) := do
  let (century, rest) ← twoDigits? text
  let (year, rest) ← twoDigits? rest
  match rest with
  | '-' :: rest =>
    let (month, rest) ← twoDigits? rest
    match rest with
    | '-' :: rest =>
      let (day, rest) ← twoDigits? rest
      if 1 ≤ month ∧ month ≤ 12 ∧ 1 ≤ day ∧ day ≤ daysOf (100 * century + year) month then some rest
      else none
    | _ => none
  | _ => none

/-- Hours and minutes; gives the text behind them. -/
def hourMinute? (text : List Char) : Option (List Char) := do
  let (hour, rest) ← twoDigits? text
  match rest with
  | ':' :: rest =>
    let (minute, rest) ← twoDigits? rest
    if hour ≤ 23 ∧ minute ≤ 59 then some rest else none
  | _ => none

/-- A time of day; gives the text behind it. -/
def time? (text : List Char) : Option (List Char) := do
  match ← hourMinute? text with
  | ':' :: rest =>
    let (second, rest) ← twoDigits? rest
    if 60 < second then none
    else
      match rest with
      | '.' :: c :: rest => if c.isDigit then some (rest.dropWhile Char.isDigit) else none
      | _ => some rest
  | _ => none

/-- The text behind the distance from universal time, if it is given. -/
def skipOffset (text : List Char) : List Char :=
  match text with
  | 'Z' :: rest => rest
  | 'z' :: rest => rest
  | '+' :: rest => (hourMinute? rest).getD text
  | '-' :: rest => (hourMinute? rest).getD text
  | _ => text

/-- A day, a time of day, or both; gives the text behind it. -/
def moment? (text : List Char) : Option (List Char) :=
  match day? text with
  | none => time? text
  | some rest =>
    match rest with
    | c :: after =>
      if c = 'T' ∨ c = 't' ∨ c = ' ' then
        match time? after with
        | some behind => some (skipOffset behind)
        | none => some rest
      else some rest
    | [] => some []

end SectionStore.Toml
