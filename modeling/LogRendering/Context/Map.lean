import LogRendering.Json.Decode
import LogRendering.Json.Writer

/-!
# Context maps

The mapped diagnostic context of an event: texts under keys, in the order of the keys, so
that equal contents have equal texts.
-/

namespace LogRendering

/-- A map from keys to texts. -/
structure ContextMap where
  entries : SortedMap String

namespace ContextMap

/-- The map without entries. -/
def empty : ContextMap :=
  ⟨.empty⟩

instance : Inhabited ContextMap := ⟨empty⟩

/-- The map in which `key` has the given value. -/
def insert (m : ContextMap) (key value : String) : ContextMap :=
  ⟨m.entries.insert key value⟩

/-- The map with all `entries` of a list, where a later entry replaces an earlier one. -/
def ofList (entries : List (String × String)) : ContextMap :=
  ⟨.ofList entries⟩

/-- The entries of `m` in the order of their keys. -/
def toList (m : ContextMap) : List (String × String) :=
  m.entries.entries

/-- The value of `key` in `m`. -/
def get? (m : ContextMap) (key : String) : Option String :=
  m.entries.get? key

/-- The number of entries. -/
def size (m : ContextMap) : Nat :=
  m.entries.size

/-- The map has no entries. -/
def isEmpty (m : ContextMap) : Bool :=
  m.entries.isEmpty

/-- The text of `m`: its entries in curly brackets. -/
def display (m : ContextMap) : String :=
  "\x7b" ++ String.intercalate ", " (m.toList.map fun entry => entry.1 ++ "=" ++ entry.2)
    ++ "\x7d"

/-- The JSON value of `m`, an object with its entries as members. -/
def toJson (m : ContextMap) : Json.Value :=
  .object (m.toList.map fun entry => (entry.1, .text entry.2))

/-- The map that the JSON text `s` denotes. -/
def ofJsonText (s : String) : Except Json.Fault ContextMap :=
  ContextMap.mk <$> (Json.Reader.mapOf Json.Reader.textValue).run s

end ContextMap

end LogRendering
