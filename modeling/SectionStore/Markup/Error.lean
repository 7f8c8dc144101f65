import SectionStore.Text.Integer
import SectionStore.Text.Quoted

/-!
# What can be wrong with markup

Causes, not texts: `Error.message` and the functions under it hold the wording. Offsets count the
octets of the document before the place that the error points at.
-/

namespace SectionStore.Markup

/-- What was still to come when the text ended. -/
inductive Awaited where
  | endOfDeclaration
  | endOfComment
  | endOfCData
  | bracketOfClosing (name : List Char)
  | bracketOfOpening (name : List Char)
  | attributeValue
  | closingQuote
  | closingTag (name : List Char)
  deriving DecidableEq, Repr

def Awaited.message : Awaited → String
  | .endOfDeclaration => "end of declaration"
  | .endOfComment => "end of comment"
  | .endOfCData => "end of CDATA section"
  | .bracketOfClosing name => "'>' closing </" ++ String.ofList name
  | .bracketOfOpening name => "'>' closing <" ++ String.ofList name
  | .attributeValue => "attribute value"
  | .closingQuote => "closing quote"
  | .closingTag name => "</" ++ String.ofList name ++ ">"

/-- Why characters form no token, or a token that may not stand where it does. -/
inductive SyntaxFault where
  | unsupportedDeclaration
  | tagName
  | closingBracket
  | spaceBeforeAttribute
  | attributeName
  | equalsSign
  | quotedValue
  | angleInValue
  | angleInText
  | declarationInContent
  | notOpened (name : List Char)
  deriving DecidableEq, Repr

def SyntaxFault.message : SyntaxFault → String
  | .unsupportedDeclaration => "unsupported markup declaration"
  | .tagName => "expected tag name"
  | .closingBracket => "expected '>'"
  | .spaceBeforeAttribute => "expected whitespace before attribute"
  | .attributeName => "expected attribute name"
  | .equalsSign => "expected '=' after attribute name"
  | .quotedValue => "expected quoted attribute value"
  | .angleInValue => "'<' in attribute value"
  | .angleInText => "'<' in character data"
  | .declarationInContent => "declaration inside content"
  | .notOpened name => "closing tag </" ++ String.ofList name ++ "> without open tag"

/-- Why an element is no typed value. -/
inductive ValueFault where
  | missingName
  | missingValue
  | notInteger (raw : List Char) (fault : Integer.Fault)
  | notBoolean (raw : Option (List Char))
  | unknownType (tag : List Char)
  deriving DecidableEq, Repr

def ValueFault.message : ValueFault → String
  | .missingName => "missing name attribute"
  | .missingValue => "missing value attribute"
  | .notInteger raw fault => Quoted.text (String.ofList raw) ++ ": " ++ fault.message
  | .notBoolean raw => "invalid boolean " ++ Quoted.option (raw.map String.ofList)
  | .unknownType tag => "unknown value type <" ++ String.ofList tag ++ ">"

/-- Why markup could not be read. -/
inductive Error where
  /-- The text ended too early. -/
  | unexpectedEnd (awaited : Awaited)
  /-- No token is written like this, or none may stand here. -/
  | syntaxError (offset : Nat) (fault : SyntaxFault)
  /-- A closing tag that does not close the innermost open element. -/
  | mismatchedTag (offset : Nat) (expected found : List Char)
  /-- Character data where only elements may stand. -/
  | unexpectedText (offset : Nat)
  /-- A reference that stands for no character. -/
  | invalidEntity (offset : Nat) (entity : List Char)
  /-- An element that cannot be read as a typed value. -/
  | malformedValue (name : List Char) (fault : ValueFault)
  deriving DecidableEq, Repr

def Error.message : Error → String
  | .unexpectedEnd awaited => "unexpected end of document, expected " ++ awaited.message
  | .syntaxError offset fault => s!"syntax error at byte {offset}: " ++ fault.message
  | .mismatchedTag offset expected found =>
    s!"mismatched tag at byte {offset}: expected </" ++ String.ofList expected ++ ">, found </" ++
      String.ofList found ++ ">"
  | .unexpectedText offset => s!"unexpected character data at byte {offset}"
  | .invalidEntity offset entity =>
    s!"invalid entity reference at byte {offset}: " ++ String.ofList entity
  | .malformedValue name fault =>
    "malformed value '" ++ String.ofList name ++ "': " ++ fault.message

end SectionStore.Markup
