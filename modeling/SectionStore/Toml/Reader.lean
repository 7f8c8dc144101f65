import SectionStore.Toml
import SectionStore.Toml.Number

/-!
# Reading TOML

A document is read line by line: assignments, and headers that open the table for the assignments
that follow. Assignments and headers enter a path of tables (`within`); the origin of a table says
whether it may be entered and added to once more. Values nest at most `maxNesting` deep, which is
also what the recursion over them rests on.
-/

namespace SectionStore.Toml

/-- How deep arrays and inline tables may nest. -/
def maxNesting : Nat := 79

/-- How many parts a dotted key may have. -/
def maxKeyParts : Nat := 79

/-! ### Tables -/

/-- Enters the tables along a path and changes the entries of the last one; `viaKey` says whether
the path is that of a dotted key, or else that of a header. Tables that are missing are made. An
inline table is closed, and a table with a header of its own is entered by headers only. In a list
of tables it is the last one that is entered. -/
def within (viaKey : Bool) (change : Origin → Entries → Option Entries) :
    List String → Origin → Entries → Option Entries
  | [], origin, entries => change origin entries
  | key :: path, _, entries => do
    match entries.get? key with
    | none =>
      let origin := if viaKey then .dotted else .implied
      return entries.set key (.table origin (← within viaKey change path origin []))
    | some (.table origin inner) =>
      if origin = .inline ∨ (viaKey ∧ origin = .header) then none
      else return entries.set key (.table origin (← within viaKey change path origin inner))
    | some (.tables items) =>
      let last ← within viaKey change path .header (← items.getLast?)
      return entries.set key (.tables (items.dropLast ++ [last]))
    | some _ => none

/-- A key with its value; the key is divided at its dots. -/
structure Assignment where
  path : List String
  key : String
  value : Toml

/-- The entries with an assignment. A key is assigned once, and a dotted key adds to tables of
dotted keys only. -/
def assign (origin : Origin) (entries : Entries) (a : Assignment) : Option Entries :=
  within true
    (fun inner there =>
      if decide (inner = .dotted) = a.path.isEmpty then none
      else if (there.get? a.key).isSome then none
      else some (there ++ [(a.key, a.value)]))
    a.path origin entries

/-- The entries with all the assignments. -/
def assignAll (origin : Origin) (entries : Entries) (assignments : List Assignment) :
    Option Entries :=
  assignments.foldlM (assign origin) entries

/-- A header with the assignments below it. -/
structure Part where
  /-- Is the header in double brackets? -/
  isItem : Bool
  path : List String
  key : String
  assignments : List Assignment

/-- The document with a part added. A header may be given once; in double brackets it adds a table
each time. -/
def addPart (document : Entries) (part : Part) : Option Entries :=
  within false
    (fun _ there => do
      match part.isItem, there.get? part.key with
      | false, none =>
        return there ++ [(part.key, .table .header (← assignAll .header [] part.assignments))]
      | false, some (.table .implied inner) =>
        let entries ← assignAll .header inner part.assignments
        return Entries.erase there part.key ++ [(part.key, .table .header entries)]
      | true, none =>
        return there ++ [(part.key, .tables [← assignAll .header [] part.assignments])]
      | true, some (.tables items) =>
        return there.set part.key (.tables (items ++ [← assignAll .header [] part.assignments]))
      | _, some _ => none)
    part.path .header document

/-! ### Keys and values -/

/-- The parts of a key that may be dotted, with blanks around each. -/
def keyParts? (text : List Char) : Option (List String × List Char) :=
  match simpleKey? (skipBlanks text) with
  | none => none
  | some (part, rest) =>
    match skipBlanks rest with
    | '.' :: after =>
      if _ : after.length < text.length then
        (keyParts? after).map fun r => (part :: r.1, r.2)
      else none
    | after => some ([part], after)
termination_by text.length

/-- A key: the path before the last dot, and the part behind it. -/
def key? (text : List Char) : Option ((List String × String) × List Char) := do
  let (parts, rest) ← keyParts? text
  if maxKeyParts < parts.length then none
  else return ((parts.dropLast, ← parts.getLast?), rest)

/-- A key, an equals sign and a value, with blanks around each. -/
def assignment? (value : Step Toml) (text : List Char) : Option (Assignment × List Char) := do
  let ((path, key), rest) ← key? text
  match rest with
  | '=' :: rest =>
    let (value, rest) ← value (skipBlanks rest)
    return (⟨path, key, value⟩, skipBlanks rest)
  | _ => none

/-- A value that holds no other values. -/
def scalar? (text : List Char) : Option (Toml × List Char) :=
  match text with
  | 't' :: 'r' :: 'u' :: 'e' :: rest => some (.boolean true, rest)
  | 'f' :: 'a' :: 'l' :: 's' :: 'e' :: rest => some (.boolean false, rest)
  | _ =>
    match string? text with
    | some (s, rest) => some (.string (String.ofList s), rest)
    | none =>
      match moment? text with
      | some rest => some (.moment, rest)
      | none =>
        match float? text with
        | some rest => some (.float, rest)
        | none => (integer? text).map fun r => (.integer r.1, r.2)

/-- The rest of an array. A comma may stand behind the last item. -/
def items? (value : Step Toml) (text : List Char) : Option (List Toml × List Char) :=
  match skipVoid? false text with
  | none => none
  | some (']' :: rest) => some ([], rest)
  | some start =>
    match value start with
    | none => none
    | some (item, rest) =>
      match skipVoid? false rest with
      | some (']' :: after) => some ([item], after)
      | some (',' :: after) =>
        if _ : after.length < text.length then
          (items? value after).map fun r => (item :: r.1, r.2)
        else none
      | _ => none
termination_by text.length

/-- The rest of an inline table with at least one entry. -/
def assignments? (value : Step Toml) (text : List Char) : Option (List Assignment × List Char) :=
  match assignment? value text with
  | none => none
  | some (a, '}' :: rest) => some ([a], rest)
  | some (a, ',' :: rest) =>
    if _ : rest.length < text.length then
      (assignments? value rest).map fun r => (a :: r.1, r.2)
    else none
  | some _ => none
termination_by text.length

/-- The rest of an inline table. -/
def inlineTable? (value : Step Toml) (text : List Char) : Option (Toml × List Char) :=
  match skipBlanks text with
  | '}' :: rest => some (.table .inline [], rest)
  | _ => do
    let (assignments, rest) ← assignments? value text
    return (.table .inline (← assignAll .inline [] assignments), rest)

/-- A value in which others nest no deeper than the given number. -/
def value? : Nat → Step Toml
  | depth + 1, '[' :: rest => (items? (value? depth) rest).map fun r => (.array r.1, r.2)
  | depth + 1, '{' :: rest => inlineTable? (value? depth) rest
  | _, text => scalar? text

/-! ### Documents -/

/-- A line of a document. -/
inductive Line where
  | void
  | assignment (a : Assignment)
  | header (isItem : Bool) (path : List String) (key : String)

/-- The line that a text begins with, and the text behind it. -/
def line? (text : List Char) : Option (Line × List Char) :=
  match skipBlanks text with
  | '[' :: '[' :: rest => do
    let ((path, key), rest) ← key? rest
    match rest with
    | ']' :: ']' :: rest => return (.header true path key, ← lineTail? rest)
    | _ => none
  | '[' :: rest => do
    let ((path, key), rest) ← key? rest
    match rest with
    | ']' :: rest => return (.header false path key, ← lineTail? rest)
    | _ => none
  | start =>
    match lineTail? start with
    | some rest => some (.void, rest)
    | none => do
      let (a, rest) ← assignment? (value? maxNesting) start
      return (.assignment a, ← lineTail? rest)

/-- The lines of a text. -/
def lines? (text : List Char) : Option (List Line) :=
  if text = [] then some []
  else
    match line? text with
    | none => none
    | some (line, rest) =>
      if _ : rest.length < text.length then (lines? rest).map (line :: ·) else none
termination_by text.length

/-- The assignments before the first header, and the parts that the headers open. -/
def divide : List Line → List Assignment × List Part
  | [] => ([], [])
  | .void :: rest => divide rest
  | .assignment a :: rest => let (first, parts) := divide rest; (a :: first, parts)
  | .header isItem path key :: rest =>
    let (below, parts) := divide rest
    ([], ⟨isItem, path, key, below⟩ :: parts)

/-- The entries of a document. -/
def parse? (text : List Char) : Option Entries := do
  let content := match text with
    | '\ufeff' :: rest => rest
    | _ => text
  let (first, parts) := divide (← lines? content)
  parts.foldlM addPart (← assignAll .header [] first)

end SectionStore.Toml
