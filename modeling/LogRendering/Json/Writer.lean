import LogRendering.Json.Value
import LogRendering.Number.Notation

/-!
# Written JSON

The compact text of a JSON value: no blanks between its parts, and in texts no escapes
but those that JSON demands.  `Value.write` is the text as a whole, and `Value.pieces` are
the pieces in which a serializer passes it on.
-/

namespace LogRendering.Json

/-- Numbers in JSON are positional from `1e-5` up to `1e16`; a whole number in double
precision ends in a point and a zero, an exponent has a sign, and a tie goes to the even
digit. -/
def numberStyle : NumberStyle where
  tie := .even
  positional := fun leading => -5 ≤ leading && leading < 16
  pointZero := true
  plusSign := true

/-- The text of a number; of one that is `double`, in `numberStyle`. -/
def Number.text : Number → String
  | natural n => naturalText n.toNat
  | negative n _ => integerText n.toInt
  | double x _ => numberStyle.text x

/-- The hexadecimal digit of value `n`, in lower case. -/
def hexDigit (n : Nat) : Char :=
  Nat.digitChar n

/-- The character `c` as it stands in a text between quotes: itself, or an escape. -/
def escapeChar (c : Char) : List Char :=
  match c with
  | '"' => ['\\', '"']
  | '\\' => ['\\', '\\']
  | '\x08' => ['\\', 'b']
  | '\x0c' => ['\\', 'f']
  | '\n' => ['\\', 'n']
  | '\r' => ['\\', 'r']
  | '\t' => ['\\', 't']
  | c =>
    if c.toNat < 0x20 then
      ['\\', 'u', '0', '0', hexDigit (c.toNat / 16), hexDigit (c.toNat % 16)]
    else [c]

/-- The text `s` between quotes, with `escapeChar` of each character. -/
def quote (s : String) : String :=
  String.ofList ('"' :: (s.toList.flatMap escapeChar ++ ['"']))

/-- The pieces in which `quote s` is written: the quotes, the escapes, and the runs of characters
that stand for themselves. -/
def quotePieces (s : String) : List String :=
  let runs := s.toList.splitBy fun c d => escapeChar c = [c] && escapeChar d = [d]
  "\"" :: (runs.map fun run => String.ofList (run.flatMap escapeChar)) ++ ["\""]

namespace Value

mutual

/-- The text of a value, without blanks between its parts. -/
def write : Value → String
  | null => "null"
  | bool b => if b then "true" else "false"
  | number n => n.text
  | text s => quote s
  | array items => "[" ++ String.intercalate "," (writeItems items) ++ "]"
  | object members => "\x7b" ++ String.intercalate "," (writeMembers members) ++ "\x7d"

/-- The items of an array, each by `write`. -/
def writeItems : List Value → List String
  | [] => []
  | item :: rest => write item :: writeItems rest

/-- The members of an object: the key by `quote`, the value by `write`. -/
def writeMembers : List (String × Value) → List String
  | [] => []
  | (key, value) :: rest => (quote key ++ ":" ++ write value) :: writeMembers rest

end

mutual

/-- The pieces in which the text of a value is written to an output one after another; joined,
they are `write`. -/
def pieces : Value → List String
  | null => ["null"]
  | bool b => [if b then "true" else "false"]
  | number n => [n.text]
  | text s => quotePieces s
  | array items => "[" :: (List.intercalate [","] (itemPieces items) ++ ["]"])
  | object members => "\x7b" :: (List.intercalate [","] (memberPieces members) ++ ["\x7d"])

/-- The `pieces` of each item of an array. -/
def itemPieces : List Value → List (List String)
  | [] => []
  | item :: rest => pieces item :: itemPieces rest

/-- The `pieces` of each member of an object, after those of its key. -/
def memberPieces : List (String × Value) → List (List String)
  | [] => []
  | (key, value) :: rest => (quotePieces key ++ ":" :: pieces value) :: memberPieces rest

end

end Value

end LogRendering.Json
