import LogRendering.Json.Writer
import Mathlib.Data.List.SplitBy

/-!
# JSON in pieces

The pieces in which a serializer passes a JSON text on, `Json.quotePieces` and
`Json.Value.pieces`, are the text `Json.quote` or `Json.Value.write` when they are joined.
-/

namespace LogRendering.Json

theorem join_singleton (s : String) :
  String.join [s] = s
  := by
  rw [String.join_cons, String.join_nil, String.append_empty]

/-- Joining `runs`, each mapped by `escapeChar`, gives `runs.flatten` mapped by `escapeChar`. -/
theorem join_map_escapeChar (runs : List (List Char)) :
  String.join (runs.map fun run => String.ofList (run.flatMap escapeChar))
    = String.ofList (runs.flatten.flatMap escapeChar)
  := by
  induction runs with
  | nil => rfl
  | cons run runs ih =>
      rw [List.map_cons, String.join_cons, ih, List.flatten_cons, List.flatMap_append,
        String.ofList_append]

/-- The pieces `quotePieces s`, joined, are `quote s`. -/
theorem join_quotePieces (s : String) :
  String.join (quotePieces s) = quote s
  := by
  rw [quotePieces, List.cons_append, String.join_cons, String.join_append, join_map_escapeChar,
    List.flatten_splitBy, join_singleton, quote]
  apply String.toList_inj.mp
  simp

theorem join_intercalate (separator : String) (parts : List (List String)) :
  String.join ([separator].intercalate parts) = separator.intercalate (parts.map String.join)
  := by
  induction parts with
  | nil => rfl
  | cons part parts ih =>
      cases parts with
      | nil => rw [List.intercalate_singleton, List.map_singleton, String.intercalate_singleton]
      | cons next parts =>
          rw [List.intercalate_cons_cons, String.join_append, ih, String.join_append,
            join_singleton, List.map_cons, List.map_cons, List.map_cons,
            String.intercalate_cons_cons]

/-- Joining pieces between an opening and a closing mark. -/
theorem join_enclosed (before after : String) (pieces : List String) :
  String.join (before :: (pieces ++ [after])) = before ++ String.join pieces ++ after
  := by
  rw [String.join_cons, String.join_append, join_singleton, String.append_assoc]

namespace Value

mutual

/-- The pieces `v.pieces`, joined, are `v.write`. -/
theorem join_pieces (v : Value) :
  String.join v.pieces = v.write
  := by
  cases v with
  | null => rfl
  | bool b => exact join_singleton _
  | number n => exact join_singleton n.text
  | text s => exact join_quotePieces s
  | array items =>
      rw [pieces, join_enclosed, join_intercalate, map_join_itemPieces items, write]
  | object members =>
      rw [pieces, join_enclosed, join_intercalate, map_join_memberPieces members, write]

theorem map_join_itemPieces (items : List Value) :
  (itemPieces items).map String.join = writeItems items
  := by
  cases items with
  | nil => rfl
  | cons item rest =>
      rw [itemPieces, List.map_cons, join_pieces item, map_join_itemPieces rest, writeItems]

theorem map_join_memberPieces (members : List (String × Value)) :
  (memberPieces members).map String.join = writeMembers members
  := by
  cases members with
  | nil => rfl
  | cons member rest =>
      obtain ⟨key, value⟩ := member
      rw [memberPieces, List.map_cons, String.join_append, String.join_cons, join_quotePieces,
        join_pieces value, map_join_memberPieces rest, writeMembers, String.append_assoc]

end

end Value

end LogRendering.Json
