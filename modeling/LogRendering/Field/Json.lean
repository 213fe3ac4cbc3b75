import LogRendering.Field.Value
import LogRendering.Json.Writer

/-!
# Field values and JSON

A field value as a JSON value, and a JSON value as a field value.  Numbers that are not
finite become null, and a value of another kind becomes its text; in the other direction
an integer too large for 64 bits with sign becomes the nearest number in double
precision.
-/

namespace LogRendering.FieldValue

/-- The JSON value of `x`, which is `null` if `x` is not finite. -/
def jsonOfBinary64 (x : Binary64) : Json.Value :=
  match Json.Number.ofBinary64? x with
  | some n => .number n
  | none => .null

mutual

/-- The JSON value of a field value.  There is none if a text inside it is abandoned. -/
def toJson : FieldValue → Except Abort Json.Value
  | null => .ok .null
  | bool b => .ok (.bool b)
  | int n => .ok (.number (.ofInt64 n))
  | float x => .ok (jsonOfBinary64 x)
  | text s => .ok (.text s)
  | seq items => do return .array (← toJsonItems items)
  | map entries => do return .object (← toJsonEntries entries)
  | other rendering => do return .text (← rendering.toText)

/-- The JSON values of the items of a sequence, by `toJson`. -/
def toJsonItems : List FieldValue → Except Abort (List Json.Value)
  | [] => .ok []
  | item :: rest => do
    let value ← toJson item
    return value :: (← toJsonItems rest)

/-- The JSON values of the entries of a mapping, by `toJson`, with their keys. -/
def toJsonEntries : List (String × FieldValue) → Except Abort (List (String × Json.Value))
  | [] => .ok []
  | (key, value) :: rest => do
    let value ← toJson value
    return (key, value) :: (← toJsonEntries rest)

end

/-- The compact text of `v.toJson`. -/
def toJsonText (v : FieldValue) : Except Abort String :=
  v.toJson.map Json.Value.write

/-- The field value of a JSON number: `n.toInt64?` if it fits, or else `n.toBinary64?`.  A number
that were neither would be null. -/
def ofJsonNumber (n : Json.Number) : FieldValue :=
  match n.toInt64? with
  | some i => int i
  | none =>
    match n.toBinary64? with
    | some x => float x
    | none => null

mutual

/-- The field value of a JSON value, with `ofJsonNumber` for numbers. -/
def ofJson : Json.Value → FieldValue
  | .null => null
  | .bool b => bool b
  | .number n => ofJsonNumber n
  | .text s => text s
  | .array items => seq (ofJsonItems items)
  | .object members => map (ofJsonMembers members)

/-- The field values of the items of an array, by `ofJson`. -/
def ofJsonItems : List Json.Value → List FieldValue
  | [] => []
  | item :: rest => ofJson item :: ofJsonItems rest

/-- The field values of the members of an object, by `ofJson`, with their keys. -/
def ofJsonMembers : List (String × Json.Value) → List (String × FieldValue)
  | [] => []
  | (key, value) :: rest => (key, ofJson value) :: ofJsonMembers rest

end

end LogRendering.FieldValue
