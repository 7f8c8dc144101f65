/-!
# TOML documents

A document as a tree. Tables remember how they came about, because that decides whether a later
line of the document may still add to them. Floating-point numbers and moments in time occur as
input only and are kept without their value.
-/

namespace SectionStore

namespace Toml

/-- How a table came about. -/
inductive Origin where
  /-- It has a header of its own. -/
  | header
  /-- It was named on the way to the table of some header. -/
  | implied
  /-- It was named by a dotted key. -/
  | dotted
  /-- It was written as a value. -/
  | inline
  deriving DecidableEq, Repr

end Toml

/-- A TOML value. -/
inductive Toml where
  | string (value : String)
  | integer (value : Int)
  | boolean (value : Bool)
  | float
  | moment
  | array (items : List Toml)
  | table (origin : Toml.Origin) (entries : List (String × Toml))
  /-- The tables of a header in double brackets. -/
  | tables (items : List (List (String × Toml)))

namespace Toml

/-- The entries of a table, in the order in which they were added. -/
abbrev Entries := List (String × Toml)

namespace Entries

def get? (entries : Entries) (key : String) : Option Toml :=
  (entries.find? (·.1 = key)).map (·.2)

/-- The entries with one set; a new one comes last. -/
def set (entries : Entries) (key : String) (value : Toml) : Entries :=
  if (get? entries key).isSome then
    entries.map fun e => if e.1 = key then (key, value) else e
  else entries ++ [(key, value)]

def erase (entries : Entries) (key : String) : Entries :=
  entries.filter (·.1 ≠ key)

end Entries

end Toml

end SectionStore
