import LogRendering.Number.Notation

/-!
# Faults of JSON text

Why a text is not the JSON that was asked for, and where that shows.  A fault belongs to
one of three categories: the text ends too early, it is not JSON, or it is JSON of the
wrong shape.
-/

namespace LogRendering.Json

/-- A place in a text: the `line`, counted from one, and the number `column` of bytes before the
place in that line. -/
structure Position where
  line : Nat
  column : Nat
deriving DecidableEq

/-- The place at which a text begins. -/
def Position.start : Position :=
  ⟨1, 0⟩

/-- The place after `width` bytes of the character `c`, if `width` is positive; after a line feed
it is the beginning of the next line. -/
def Position.past (p : Position) (c : Char) (width : Nat) : Position :=
  if c = '\n' then ⟨p.line + 1, 0⟩ else ⟨p.line, p.column + width⟩

/-- The kinds of `Flaw`. -/
inductive Category where
  | syntactic
  | data
  | ended
deriving DecidableEq

/-- The name of a kind of fault. -/
def Category.name : Category → String
  | syntactic => "Syntax"
  | data => "Data"
  | ended => "Eof"

/-- The ways in which a text can be at fault, each with its `message`. -/
inductive Flaw where
  | endInList
  | endInObject
  | endInText
  | endInValue
  | expectedColon
  | expectedCommaOrListEnd
  | expectedCommaOrObjectEnd
  | expectedLiteral
  | expectedValue
  | invalidEscape
  | invalidNumber
  | numberOutOfRange
  | controlCharacter
  | keyNotText
  | loneSurrogate
  | unfinishedSurrogatePair
  | trailingComma
  | trailingCharacters
  | nestedTooDeeply
  | wrongType
  | unknownVariant
  | duplicateField
deriving DecidableEq

namespace Flaw

/-- The category of a flaw. -/
def category : Flaw → Category
  | endInList | endInObject | endInText | endInValue => .ended
  | wrongType | unknownVariant | duplicateField => .data
  | _ => .syntactic

/-- The description of a flaw. -/
def message : Flaw → String
  | endInList => "EOF while parsing a list"
  | endInObject => "EOF while parsing an object"
  | endInText => "EOF while parsing a string"
  | endInValue => "EOF while parsing a value"
  | expectedColon => "expected `:`"
  | expectedCommaOrListEnd => "expected `,` or `]`"
  | expectedCommaOrObjectEnd => "expected `,` or `\x7d`"
  | expectedLiteral => "expected ident"
  | expectedValue => "expected value"
  | invalidEscape => "invalid escape"
  | invalidNumber => "invalid number"
  | numberOutOfRange => "number out of range"
  | controlCharacter =>
    "control character (\\u0000-\\u001F) found while parsing a string"
  | keyNotText => "key must be a string"
  | loneSurrogate => "lone leading surrogate in hex escape"
  | unfinishedSurrogatePair => "unexpected end of hex escape"
  | trailingComma => "trailing comma"
  | trailingCharacters => "trailing characters"
  | nestedTooDeeply => "recursion limit exceeded"
  | wrongType => "invalid type"
  | unknownVariant => "unknown variant"
  | duplicateField => "duplicate field"

end Flaw

/-- A `flaw` and the `position` where it shows. -/
structure Fault where
  flaw : Flaw
  position : Position
deriving DecidableEq

/-- The text of a fault: the message of its `flaw`, and its place. -/
def Fault.message (fault : Fault) : String :=
  fault.flaw.message ++ " at line " ++ naturalText fault.position.line
    ++ " column " ++ naturalText fault.position.column

end LogRendering.Json
