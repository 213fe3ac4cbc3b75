import LogRendering.Json.Value
import LogRendering.Rendering

/-!
# Field values

The structured parameters of messages: scalars, sequences and mappings, and values of
any other kind, of which only their text is known.  The entries of a mapping are a list;
a field value is well formed if the keys of every mapping in it are strictly increasing.
-/

namespace LogRendering

/-- A structured parameter of a message.  A value of the kind `other` is known by its `Rendering`
only. -/
inductive FieldValue where
  | null
  | bool (b : Bool)
  | int (n : Int64)
  | float (x : Binary64)
  | text (s : String)
  | seq (items : List FieldValue)
  | map (entries : List (String × FieldValue))
  | other (rendering : Rendering)

namespace FieldValue

instance : Inhabited FieldValue := ⟨null⟩

/-- The mapping with all `entries` of a list, where a later entry replaces an earlier one of the
same key. -/
def ofEntries (entries : List (String × FieldValue)) : FieldValue :=
  map (SortedMap.ofList entries).entries

/-- The keys of the mapping itself, and of every mapping inside the value, are strictly
increasing. -/
inductive WellFormed : FieldValue → Prop where
  | null : WellFormed null
  | bool (b : Bool) : WellFormed (bool b)
  | int (n : Int64) : WellFormed (int n)
  | float (x : Binary64) : WellFormed (float x)
  | text (s : String) : WellFormed (text s)
  | seq {items : List FieldValue} (each : ∀ item ∈ items, WellFormed item) :
    WellFormed (seq items)
  | map {entries : List (String × FieldValue)} (increasing : KeysIncrease entries)
    (each : ∀ entry ∈ entries, WellFormed entry.2) : WellFormed (map entries)
  | other (rendering : Rendering) : WellFormed (other rendering)

end FieldValue

end LogRendering
