import LogRendering.Field.Value
import LogRendering.Inspection
import LogRendering.Number.Notation

/-!
# Inspected field values

The inspection of a field value names the kind of each of its parts.
-/

namespace LogRendering.FieldValue

/-- Inspected numbers are positional from `1e-4` up to `1e16`, zero included; a whole
number ends in a point and a zero, a positive exponent has no sign, and a tie goes to
the upper neighbour. -/
def inspectionStyle : NumberStyle where
  tie := .upper
  positional := fun leading => -4 ≤ leading && leading < 16
  pointZero := true
  plusSign := false

mutual

/-- The inspection of a field value.  There is none if a text inside it is abandoned. -/
def inspect : FieldValue → Except Abort Inspection
  | null => .ok (.leaf "Null")
  | bool b => .ok (.tuple "Bool" [.ofBool b])
  | int n => .ok (.tuple "Int" [.leaf (integerText n.toInt)])
  | float x => .ok (.tuple "Float" [.leaf (inspectionStyle.text x)])
  | text s => .ok (.tuple "String" [.ofText s])
  | seq items => do return .tuple "Seq" [.list (← inspectItems items)]
  | map entries => do return .tuple "Map" [.map (← inspectEntries entries)]
  | other rendering => do return .tuple "Other" [.ofText (← rendering.toText)]

/-- The inspections of the items of a sequence, by `inspect`. -/
def inspectItems : List FieldValue → Except Abort (List Inspection)
  | [] => .ok []
  | item :: rest => do
    let inspection ← inspect item
    return inspection :: (← inspectItems rest)

/-- The inspections of the entries of a mapping, by `inspect`, with those of their keys. -/
def inspectEntries :
    List (String × FieldValue) → Except Abort (List (Inspection × Inspection))
  | [] => .ok []
  | (key, value) :: rest => do
    let inspection ← inspect value
    return (.ofText key, inspection) :: (← inspectEntries rest)

end

end LogRendering.FieldValue
