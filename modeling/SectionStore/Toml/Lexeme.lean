import SectionStore.Text.Cut

/-!
# The smallest parts of a TOML document

Blanks, line ends and comments, and the four kinds of strings. A reader takes a text and gives what
it has read with the rest of the text, or nothing if the text does not begin with what it reads.
-/

namespace SectionStore.Toml

/-- A reader of the beginning of a text. -/
abbrev Step (α : Type) := List Char → Option (α × List Char)

def isBlank (c : Char) : Bool :=
  c = ' ' || c = '\t'

/-- May the character stand in a comment or string as it is? -/
def isPlain (c : Char) : Bool :=
  c = '\t' || (' ' ≤ c && c ≠ '\x7f')

/-- May the character stand in a key without quotes? -/
def isBare (c : Char) : Bool :=
  c.isAlphanum || c = '_' || c = '-'

def skipBlanks (text : List Char) : List Char :=
  text.dropWhile isBlank

/-- The text behind a line break. -/
def lineBreak? : List Char → Option (List Char)
  | '\n' :: rest => some rest
  | '\r' :: '\n' :: rest => some rest
  | _ => none

/-- The text without the line break that it may begin with. -/
def skipLineBreak (text : List Char) : List Char :=
  (lineBreak? text).getD text

/-- The text behind the rest of a line, which holds nothing but a comment. -/
def lineTail? (text : List Char) : Option (List Char) :=
  let after :=
    match skipBlanks text with
    | '#' :: comment => comment.dropWhile isPlain
    | other => other
  if after = [] then some [] else lineBreak? after

/-- The text behind blanks, line breaks and whole comments. -/
def skipVoid? (inComment : Bool) : List Char → Option (List Char)
  | [] => if inComment then none else some []
  | '\n' :: rest => skipVoid? false rest
  | '\r' :: '\n' :: rest => skipVoid? false rest
  | c :: rest =>
    if inComment then (if isPlain c then skipVoid? true rest else none)
    else if isBlank c then skipVoid? false rest
    else if c = '#' then skipVoid? true rest
    else some (c :: rest)

/-! ### Escapes -/

def hexDigit? (c : Char) : Option Nat :=
  if '0' ≤ c ∧ c ≤ '9' then some (c.toNat - '0'.toNat)
  else if 'a' ≤ c ∧ c ≤ 'f' then some (c.toNat - 'a'.toNat + 10)
  else if 'A' ≤ c ∧ c ≤ 'F' then some (c.toNat - 'A'.toNat + 10)
  else none

/-- The character whose number the hexadecimal digits spell. -/
def charOfHex? (digits : List Char) : Option Char := do
  let code ← digits.foldlM (fun n c => (hexDigit? c).map (16 * n + ·)) 0
  if h : code.isValidChar then some (Char.ofNatAux code h) else none

/-- The character that an escape stands for; the backslash has been read. -/
def escape? : Step Char
  | 'b' :: rest => some ('\x08', rest)
  | 't' :: rest => some ('\t', rest)
  | 'n' :: rest => some ('\n', rest)
  | 'f' :: rest => some ('\x0c', rest)
  | 'r' :: rest => some ('\r', rest)
  | '"' :: rest => some ('"', rest)
  | '\\' :: rest => some ('\\', rest)
  | 'u' :: a :: b :: c :: d :: rest => (charOfHex? [a, b, c, d]).map (·, rest)
  | 'U' :: a :: b :: c :: d :: e :: f :: g :: h :: rest =>
    (charOfHex? [a, b, c, d, e, f, g, h]).map (·, rest)
  | _ => none

theorem length_lt_of_escape? {text rest : List Char} {c : Char} (h : escape? text = some (c, rest)) :
    rest.length < text.length := by
  unfold escape? at h
  split at h
  case h_8 | h_9 =>
    obtain ⟨_, _, he⟩ := Option.map_eq_some_iff.1 h
    cases he
    simp only [List.length_cons]
    omega
  case h_10 => cases h
  all_goals
    cases h
    simp

theorem length_le_of_lineBreak? {text rest : List Char} (h : lineBreak? text = some rest) :
    rest.length ≤ text.length := by
  unfold lineBreak? at h
  split at h
  · cases h
    simp
  · cases h
    simp only [List.length_cons]
    omega
  · cases h

/-! ### Strings -/

/-- The rest of a string in double quotes. -/
def basic? (text : List Char) : Option (List Char × List Char) :=
  match text with
  | [] => none
  | '"' :: rest => some ([], rest)
  | '\\' :: rest =>
    match h : escape? rest with
    | none => none
    | some (c, after) =>
      have := length_lt_of_escape? h
      (basic? after).map fun r => (c :: r.1, r.2)
  | c :: rest => if isPlain c then (basic? rest).map fun r => (c :: r.1, r.2) else none
termination_by text.length

/-- The rest of a string in single quotes. -/
def literal? : Step (List Char)
  | [] => none
  | '\'' :: rest => some ([], rest)
  | c :: rest => if isPlain c then (literal? rest).map fun r => (c :: r.1, r.2) else none

/-- The text behind blanks and line breaks. -/
def skipBreaks : List Char → List Char
  | [] => []
  | '\n' :: rest => skipBreaks rest
  | '\r' :: '\n' :: rest => skipBreaks rest
  | c :: rest => if isBlank c then skipBreaks rest else c :: rest

theorem length_skipBreaks_le (text : List Char) : (skipBreaks text).length ≤ text.length := by
  fun_induction skipBreaks text with
  | case1 => exact Nat.le_refl _
  | case2 _ ih => exact Nat.le_succ_of_le ih
  | case3 _ ih => exact Nat.le_succ_of_le (Nat.le_succ_of_le ih)
  | case4 _ _ _ _ _ ih => exact Nat.le_succ_of_le ih
  | case5 => exact Nat.le_refl _

/-- The text behind a break within a string: blanks, a line break, and all blanks and line breaks
that follow. -/
def softBreak? (text : List Char) : Option (List Char) :=
  (lineBreak? (skipBlanks text)).map skipBreaks

theorem length_le_of_softBreak? {text rest : List Char} (h : softBreak? text = some rest) :
    rest.length ≤ text.length := by
  obtain ⟨after, ha, rfl⟩ := Option.map_eq_some_iff.1 h
  have h₁ := length_skipBreaks_le after
  have h₂ := length_le_of_lineBreak? ha
  have h₃ : (skipBlanks text).length ≤ text.length := Cut.length_dropWhile_le isBlank text
  omega

/-- The rest of a string in triple double quotes. Up to two quotes may stand before the closing
ones. -/
def basicLines? (text : List Char) : Option (List Char × List Char) :=
  match text with
  | [] => none
  | '"' :: '"' :: '"' :: '"' :: '"' :: rest => some (['"', '"'], rest)
  | '"' :: '"' :: '"' :: '"' :: rest => some (['"'], rest)
  | '"' :: '"' :: '"' :: rest => some ([], rest)
  | '\\' :: rest =>
    match hs : softBreak? rest with
    | some after =>
      have := length_le_of_softBreak? hs
      basicLines? after
    | none =>
      match he : escape? rest with
      | none => none
      | some (c, after) =>
        have := length_lt_of_escape? he
        (basicLines? after).map fun r => (c :: r.1, r.2)
  | '\r' :: '\n' :: rest => (basicLines? rest).map fun r => ('\n' :: r.1, r.2)
  | c :: rest =>
    if isPlain c || c = '\n' then (basicLines? rest).map fun r => (c :: r.1, r.2) else none
termination_by text.length

/-- The rest of a string in triple single quotes. -/
def literalLines? : Step (List Char)
  | [] => none
  | '\'' :: '\'' :: '\'' :: '\'' :: '\'' :: rest => some (['\'', '\''], rest)
  | '\'' :: '\'' :: '\'' :: '\'' :: rest => some (['\''], rest)
  | '\'' :: '\'' :: '\'' :: rest => some ([], rest)
  | '\r' :: '\n' :: rest => (literalLines? rest).map fun r => ('\n' :: r.1, r.2)
  | c :: rest =>
    if isPlain c || c = '\n' then (literalLines? rest).map fun r => (c :: r.1, r.2) else none

/-- A string of any kind. -/
def string? : Step (List Char)
  | '"' :: '"' :: '"' :: rest => basicLines? (skipLineBreak rest)
  | '"' :: rest => basic? rest
  | '\'' :: '\'' :: '\'' :: rest => literalLines? (skipLineBreak rest)
  | '\'' :: rest => literal? rest
  | _ => none

/-- A key without dots. -/
def simpleKey? (text : List Char) : Option (String × List Char) :=
  match text with
  | '"' :: rest => (basic? rest).map fun r => (String.ofList r.1, r.2)
  | '\'' :: rest => (literal? rest).map fun r => (String.ofList r.1, r.2)
  | _ =>
    let bare := text.takeWhile isBare
    if bare = [] then none else some (String.ofList bare, text.dropWhile isBare)

end SectionStore.Toml
