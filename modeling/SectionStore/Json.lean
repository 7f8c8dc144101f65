/-!
# JSON documents

A document as a tree, and its form with one member a line, two spaces deep a level, the members of
an object in the order of their keys. Numbers other than integers occur as input only and are kept
without their value.
-/

namespace SectionStore

/-- A JSON document. -/
inductive Json where
  | null
  | boolean (value : Bool)
  | int (value : Int)
  | fraction
  | string (value : String)
  | array (items : List Json)
  | object (members : List (String × Json))
  deriving Inhabited

namespace Json

/-- The written form of a character within a string. -/
def escapeChar (c : Char) : List Char :=
  if c = '"' then ['\\', '"']
  else if c = '\\' then ['\\', '\\']
  else if c = '\n' then ['\\', 'n']
  else if c = '\r' then ['\\', 'r']
  else if c = '\t' then ['\\', 't']
  else if c = '\x08' then ['\\', 'b']
  else if c = '\x0c' then ['\\', 'f']
  else if c.toNat < 0x20 then
    ['\\', 'u', '0', '0', Nat.digitChar (c.toNat / 16), Nat.digitChar (c.toNat % 16)]
  else [c]

/-- The written form of a string. -/
def quote (s : String) : String :=
  String.ofList ('"' :: s.toList.flatMap escapeChar ++ ['"'])

/-- A line break followed by the indentation of the given level. -/
def lineBreak (level : Nat) : String :=
  "\n" ++ "".pushn ' ' (2 * level)

/-- The lines of an array or object between its brackets; nothing stands between empty ones. -/
def block (left right : String) (level : Nat) (lines : List String) : String :=
  if lines.isEmpty then left ++ right
  else
    left ++ lineBreak (level + 1) ++ ("," ++ lineBreak (level + 1)).intercalate lines ++
      lineBreak level ++ right

/-- The members in the order of their keys. -/
def sortMembers {α : Type} (members : List (String × α)) : List (String × α) :=
  members.mergeSort fun a b => decide (a.1 ≤ b.1)

mutual

/-- The indented form of a document at the given level. -/
def renderAt (level : Nat) : Json → String
  | null => "null"
  | boolean value => if value then "true" else "false"
  | int value => toString value
  | fraction => "null"
  | string value => quote value
  | array items => block "[" "]" level (renderItems (level + 1) items)
  | object members =>
    block "\x7b" "\x7d" level
      ((sortMembers (renderMembers (level + 1) members)).map fun m => quote m.1 ++ ": " ++ m.2)

/-- The indented forms of the items of an array. -/
def renderItems (level : Nat) : List Json → List String
  | [] => []
  | item :: rest => renderAt level item :: renderItems level rest

/-- The keys of an object with the indented forms of their values. -/
def renderMembers (level : Nat) : List (String × Json) → List (String × String)
  | [] => []
  | (key, value) :: rest => (key, renderAt level value) :: renderMembers level rest

end

/-- The indented form of a document. -/
def render (document : Json) : String :=
  renderAt 0 document

/-- The value of a member; the last one counts where a key is repeated. -/
def member? (members : List (String × Json)) (key : String) : Option Json :=
  (members.reverse.find? (·.1 = key)).map (·.2)

/-- The name that a document gives for one of several alternatives without data: the name itself,
or an object whose only member has that name and holds nothing. -/
def alternative? : Json → Option String
  | string name => some name
  | object [(name, null)] => some name
  | _ => none

end Json

end SectionStore
