import LogRendering.Text.Quoted

/-!
# Inspections

The form in which a value shows its own structure to a programmer: a tree of named
tuples, records, lists and maps over plain texts.  A tree is written compactly on one
line, or spread over indented lines.
-/

namespace LogRendering

/-- The structure of a value, from which `compact` and `pretty` give its text for a developer. -/
inductive Inspection where
  | leaf (text : String)
  | tuple (name : String) (arguments : List Inspection)
  | record (name : String) (fields : List (String × Inspection))
  | list (items : List Inspection)
  | map (entries : List (Inspection × Inspection))

namespace Inspection

/-- The inspection of a text: the text between quotes, by `Text.quoted`. -/
def ofText (s : String) : Inspection :=
  leaf (Text.quoted s)

/-- The inspection of a truth value, `true` or `false`. -/
def ofBool (b : Bool) : Inspection :=
  leaf (if b then "true" else "false")

/-- The texts `items` between brackets, separated by commas. -/
def enclosed (opening closing : String) (items : List String) : String :=
  opening ++ String.intercalate ", " items ++ closing

mutual

/-- The inspection on one line.  Lists and records are `enclosed` in their brackets. -/
def compact : Inspection → String
  | leaf text => text
  | tuple name arguments => enclosed (name ++ "(") ")" (compactItems arguments)
  | record name fields => enclosed (name ++ " \x7b ") " \x7d" (compactFields fields)
  | list items => enclosed "[" "]" (compactItems items)
  | map entries => enclosed "\x7b" "\x7d" (compactEntries entries)

/-- The items of a list, each by `compact`. -/
def compactItems : List Inspection → List String
  | [] => []
  | item :: rest => compact item :: compactItems rest

/-- The fields of a record, each with its name and by `compact`. -/
def compactFields : List (String × Inspection) → List String
  | [] => []
  | (name, value) :: rest => (name ++ ": " ++ compact value) :: compactFields rest

/-- The entries of a map, key and value each by `compact`. -/
def compactEntries : List (Inspection × Inspection) → List String
  | [] => []
  | (key, value) :: rest => (compact key ++ ": " ++ compact value) :: compactEntries rest

end

/-- The beginning of a line at `depth`: four spaces for each level. -/
def indentation (depth : Nat) : String :=
  String.ofList (List.replicate (4 * depth) ' ')

/-- Texts between brackets, each on a line of its own that is indented below `depth` and
ends in a comma; only the brackets if there are none. -/
def spreadOver (depth : Nat) (opening closing : String) (items : List String) : String :=
  if items.isEmpty then opening ++ closing
  else
    opening ++ "\n"
      ++ String.join (items.map fun item => indentation (depth + 1) ++ item ++ ",\n")
      ++ indentation depth ++ closing

mutual

/-- The inspection spread over lines by `spreadOver`, where it begins at the given depth. -/
def spread (depth : Nat) : Inspection → String
  | leaf text => text
  | tuple name arguments =>
    spreadOver depth (name ++ "(") ")" (spreadItems (depth + 1) arguments)
  | record name fields =>
    spreadOver depth (name ++ " \x7b") "\x7d" (spreadFields (depth + 1) fields)
  | list items => spreadOver depth "[" "]" (spreadItems (depth + 1) items)
  | map entries => spreadOver depth "\x7b" "\x7d" (spreadEntries (depth + 1) entries)

/-- The items of a list, each by `spread`. -/
def spreadItems (depth : Nat) : List Inspection → List String
  | [] => []
  | item :: rest => spread depth item :: spreadItems depth rest

/-- The fields of a record, each with its name and by `spread`. -/
def spreadFields (depth : Nat) : List (String × Inspection) → List String
  | [] => []
  | (name, value) :: rest =>
    (name ++ ": " ++ spread depth value) :: spreadFields depth rest

/-- The entries of a map, key and value each by `spread`. -/
def spreadEntries (depth : Nat) : List (Inspection × Inspection) → List String
  | [] => []
  | (key, value) :: rest =>
    (spread depth key ++ ": " ++ spread depth value) :: spreadEntries depth rest

end

/-- The inspection over several lines: `spread` from the left margin. -/
def pretty (i : Inspection) : String :=
  spread 0 i

end Inspection

end LogRendering
