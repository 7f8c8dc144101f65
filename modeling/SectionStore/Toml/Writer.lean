import SectionStore.Toml.Lexeme

/-!
# Writing TOML strings

A string is written in the first form that needs no escapes: between double quotes, single quotes,
triple double quotes, triple single quotes. If there is none, it is escaped. A tabulator is written
as it is between single quotes only.
-/

namespace SectionStore.Toml

/-- The length of the longest run of a character. -/
def longestRun (mark : Char) (text : List Char) : Nat :=
  let step (acc : Nat × Nat) (c : Char) : Nat × Nat :=
    if c = mark then (max acc.1 (acc.2 + 1), acc.2 + 1) else (acc.1, 0)
  (text.foldl step (0, 0)).1

/-- Is the character one that must be escaped in every string that allows escapes? -/
def isControl (c : Char) : Bool :=
  (c < ' ' && c ≠ '\t' && c ≠ '\n') || c = '\x7f'

/-- An upper-case hexadecimal digit. -/
def upperHexDigit (n : Nat) : Char :=
  (Nat.digitChar n).toUpper

/-- The escape of a character that is neither quote nor line break. -/
def escapeChar (c : Char) : List Char :=
  if c = '\x08' then ['\\', 'b']
  else if c = '\t' then ['\\', 't']
  else if c = '\x0c' then ['\\', 'f']
  else if c = '\r' then ['\\', 'r']
  else if c = '\\' then ['\\', '\\']
  else if isControl c then
    ['\\', 'u', '0', '0', upperHexDigit (c.toNat / 16), upperHexDigit (c.toNat % 16)]
  else [c]

/-- The text between double quotes, or between triple ones if it has several `lines`. Only a quote
that would be the third in a row needs an escape between triple quotes; `quotes` counts those that
have just been written. -/
def escapeText (lines : Bool) (quotes : Nat) : List Char → List Char
  | [] => []
  | c :: rest =>
    if c = '"' then
      if lines ∧ quotes < 2 then '"' :: escapeText lines (quotes + 1) rest
      else '\\' :: '"' :: escapeText lines 0 rest
    else if c = '\n' then
      if lines then '\n' :: escapeText lines 0 rest
      else '\\' :: 'n' :: escapeText lines 0 rest
    else escapeChar c ++ escapeText lines 0 rest

/-- The written form of a string. -/
def quote (s : String) : String :=
  let text := s.toList
  let hasControl := text.any isControl
  let hasBreak := text.contains '\n'
  let hasBackslash := text.contains '\\'
  let doubles := longestRun '"' text
  let singles := longestRun '\'' text
  let double := ['"']
  let single := ['\'']
  let tripled (mark : List Char) := mark ++ mark ++ mark
  let start := if hasBreak then ['\n'] else []
  String.ofList <|
    if ¬ hasControl ∧ ¬ hasBackslash ∧ doubles = 0 ∧ ¬ hasBreak then
      double ++ escapeText false 0 text ++ double
    else if ¬ hasControl ∧ singles = 0 ∧ ¬ hasBreak then single ++ text ++ single
    else if ¬ hasControl ∧ ¬ hasBackslash ∧ doubles ≤ 2 then
      tripled double ++ start ++ escapeText true 0 text ++ tripled double
    else if ¬ hasControl ∧ singles ≤ 2 then tripled single ++ start ++ text ++ tripled single
    else if hasBreak then tripled double ++ start ++ escapeText true 0 text ++ tripled double
    else double ++ escapeText false 0 text ++ double

end SectionStore.Toml
