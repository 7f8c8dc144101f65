import SectionStore.Text.Unprinted

/-!
# Quoted text

A text in double quotes, as messages and state reports show it. Six characters have an escape of
one letter or sign, those of `Unprinted` are written by number, all others stand for themselves.
-/

namespace SectionStore.Quoted

/-- The written form of one character. -/
def escapeChar (c : Char) : List Char :=
  if c = '\x00' then ['\\', '0']
  else if c = '\t' then ['\\', 't']
  else if c = '\r' then ['\\', 'r']
  else if c = '\n' then ['\\', 'n']
  else if c = '\\' then ['\\', '\\']
  else if c = '"' then ['\\', '"']
  else if Unprinted.isUnprinted c then
    ['\\', 'u', '\x7b'] ++ Nat.toDigits 16 c.toNat ++ ['\x7d']
  else [c]

/-- The quoted form of a text. -/
def quote (text : List Char) : List Char :=
  '"' :: text.flatMap escapeChar ++ ['"']

/-- The quoted form of a text, as a string. -/
def text (s : String) : String :=
  String.ofList (quote s.toList)

/-- The form of a text that may be absent. -/
def option : Option String → String
  | none => "None"
  | some s => "Some(" ++ text s ++ ")"

/-- The form of a list of texts. -/
def list (texts : List String) : String :=
  "[" ++ ", ".intercalate (texts.map text) ++ "]"

example : quote ['a', '"', '\''] = ['"', 'a', '\\', '"', '\'', '"'] := by decide

end SectionStore.Quoted
