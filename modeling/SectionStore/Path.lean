/-!
# File paths

A path is kept as it was written. `pieces` divides it at its slashes, which is what finding a file
follows; `parts` leaves out the pieces that name nothing, which is what taking a path apart follows.
`directory` keeps such pieces before the directory's name and leaves them out behind it, so it is no
longer than it has to be, however many slashes stand before the name of the file.
-/

namespace SectionStore

/-- A file path. -/
structure Path where
  text : String
  deriving DecidableEq, Repr

namespace Path

/-- Divides a text at its slashes. There is a piece before the first and behind the last. -/
def split : List Char → List (List Char)
  | [] => [[]]
  | c :: rest =>
    if c = '/' then [] :: split rest
    else
      match split rest with
      | [] => [[c]]
      | piece :: more => (c :: piece) :: more

/-- What stands between the slashes. -/
def pieces (path : Path) : List String :=
  (split path.text.toList).map String.ofList

/-- Does a piece lead elsewhere? -/
def leadsElsewhere (piece : String) : Bool :=
  piece ≠ "" && piece ≠ "."

/-- The pieces that lead elsewhere. -/
def parts (path : Path) : List String :=
  path.pieces.filter leadsElsewhere

def isAbsolute (path : Path) : Bool :=
  path.text.toList.head? = some '/'

/-- The path of something in the directory of a path; an absolute `rest` stands for itself. -/
def join (path : Path) (rest : String) : Path :=
  if (Path.mk rest).isAbsolute then ⟨rest⟩
  else if path.text = "" ∨ path.text.toList.getLast? = some '/' then ⟨path.text ++ rest⟩
  else ⟨path.text ++ "/" ++ rest⟩

/-- The name of the file. A path that ends by going up has none. -/
def fileName? (path : Path) : Option String :=
  path.parts.getLast?.filter (· ≠ "..")

/-- The pieces up to the last one that leads elsewhere. -/
def upToLastPart (pieces : List String) : List String :=
  (pieces.reverse.dropWhile fun piece => !leadsElsewhere piece).reverse

/-- The path of the directory that the last part is in, as it was written. It is empty if nothing
stands before that part. -/
def directory (path : Path) : Path :=
  let pieces := upToLastPart (upToLastPart path.pieces).dropLast
  if pieces.isEmpty && path.isAbsolute then ⟨"/"⟩ else ⟨"/".intercalate pieces⟩

/-- The path with the given parts. -/
def ofParts (absolute : Bool) (parts : List String) : Path :=
  ⟨(if absolute then "/" else "") ++ "/".intercalate parts⟩

end Path

end SectionStore
