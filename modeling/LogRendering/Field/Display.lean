import LogRendering.Field.Value
import LogRendering.Number.Notation

/-!
# Displayed field values

The plain text of a field value: texts as they are, numbers in positional form, sequences
in square brackets and mappings in curly ones.  The text of a value of another kind may
be incomplete, and then nothing is displayed after it.
-/

namespace LogRendering.FieldValue

/-- Displayed numbers are always positional, a whole number has no point, and a tie goes
to the upper neighbour. -/
def displayStyle : NumberStyle where
  tie := .upper
  positional := fun _ => true
  pointZero := false
  plusSign := false

mutual

/-- The text of a field value, which is that of its `Rendering` for a value of another kind. -/
def display : FieldValue → Rendering
  | null => .ofText "null"
  | bool b => .ofText (if b then "true" else "false")
  | int n => .ofText (integerText n.toInt)
  | float x => .ofText (displayStyle.text x)
  | text s => .ofText s
  | seq items =>
    .ofText "[" ++ Rendering.separated ", " (displayItems items) ++ .ofText "]"
  | map entries =>
    .ofText "\x7b" ++ Rendering.separated ", " (displayEntries entries) ++ .ofText "\x7d"
  | other rendering => rendering

/-- The texts of the items of a sequence, by `display`. -/
def displayItems : List FieldValue → List Rendering
  | [] => []
  | item :: rest => display item :: displayItems rest

/-- The texts `key=value` of the entries of a mapping, by `display`. -/
def displayEntries : List (String × FieldValue) → List Rendering
  | [] => []
  | (key, value) :: rest => (.ofText (key ++ "=") ++ display value) :: displayEntries rest

end

/-- The text `v.display` of a field value, where it must not fail. -/
def toText (v : FieldValue) : Except Abort String :=
  v.display.toText

end LogRendering.FieldValue
