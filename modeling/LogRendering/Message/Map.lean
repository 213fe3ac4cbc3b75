import LogRendering.Message.Basic

/-!
# Map messages

A message made of field values under keys, in the order of the keys.  It renders itself
as text, as JSON, and as XML.
-/

namespace LogRendering

/-- A message made of field values under keys, in the order of the keys. -/
structure MapMessage where
  entries : SortedMap FieldValue

namespace MapMessage

/-- The message without entries. -/
def empty : MapMessage :=
  ⟨.empty⟩

/-- The message in which `key` has the given `value`. -/
def insert (m : MapMessage) (key : String) (value : FieldValue) : MapMessage :=
  ⟨m.entries.insert key value⟩

/-- The message with all `entries` of a list, where a later entry replaces an earlier one. -/
def ofList (entries : List (String × FieldValue)) : MapMessage :=
  ⟨.ofList entries⟩

/-- The value of `key`. -/
def get? (m : MapMessage) (key : String) : Option FieldValue :=
  m.entries.get? key

/-- The message has no entries. -/
def isEmpty (m : MapMessage) : Bool :=
  m.entries.isEmpty

/-- The field value that is the `map` of the same entries. -/
def toField (m : MapMessage) : FieldValue :=
  .map m.entries.entries

/-- An entry as text: the key, and the value between double quotes, where the value is not
escaped. -/
def entryText (entry : String × FieldValue) : Rendering :=
  .ofText (entry.1 ++ "=\"") ++ entry.2.display ++ .ofText "\""

/-- The draft with the `entryText` of the given entries added, each after a space. -/
def addEntries (draft : Draft) : List (String × FieldValue) → Draft
  | [] => draft
  | entry :: rest => addEntries ((draft.add (.ofText " ")).add (entryText entry)) rest

/-- The buffer after the text of the message has been added to it.  An entry whose `entryText`
fails contributes the part of the text that it has. -/
def addTo (m : MapMessage) (buffer : String) : Draft :=
  match m.entries.entries with
  | [] => .ofText buffer
  | entry :: rest => addEntries ((Draft.ofText buffer).add (entryText entry)) rest

/-- The text of the message: what `addTo` adds to an empty buffer. -/
def text (m : MapMessage) : Except Abort String :=
  (m.addTo "").result

/-- The message as JSON: the compact text of the object made of its entries. -/
def jsonText (m : MapMessage) : Except Abort String := do
  return (Json.Value.ofMembers (← FieldValue.toJsonEntries m.entries.entries)).write

/-- The entity in place of a character of XML markup; any other character itself, also one of the
control characters that XML forbids. -/
def xmlEscapeChar : Char → List Char
  | '&' => ['&', 'a', 'm', 'p', ';']
  | '<' => ['&', 'l', 't', ';']
  | '>' => ['&', 'g', 't', ';']
  | '"' => ['&', 'q', 'u', 'o', 't', ';']
  | '\'' => ['&', 'a', 'p', 'o', 's', ';']
  | c => [c]

/-- The text with `xmlEscapeChar` of each character. -/
def xmlEscape (s : String) : String :=
  String.ofList (s.toList.flatMap xmlEscapeChar)

/-- An entry as a line of XML: an element `Entry` with the key as its attribute. -/
def xmlEntry (key value : String) : String :=
  "  <Entry key=\"" ++ xmlEscape key ++ "\">" ++ xmlEscape value ++ "</Entry>\n"

/-- The entries as lines of XML, each by `xmlEntry`. -/
def xmlEntries : List (String × FieldValue) → Except Abort String
  | [] => .ok ""
  | (key, value) :: rest => do
    let text ← value.toText
    return xmlEntry key text ++ (← xmlEntries rest)

/-- The message as XML: an element `Map` with the `xmlEntries`. -/
def xmlText (m : MapMessage) : Except Abort String := do
  return "<Map>\n" ++ (← xmlEntries m.entries.entries) ++ "</Map>"

/-- The formats of a map message: `JSON` and `XML`, and its `text` for any other name. -/
def multiformat (m : MapMessage) : Multiformat where
  text := m.text
  addTo := some m.addTo
  formats := ["JSON", "XML"]
  formatAs := fun name =>
    if Text.equalIgnoringCase name "JSON" then m.jsonText
    else if Text.equalIgnoringCase name "XML" then m.xmlText
    else m.text

/-- The map message with its capability `multiformat`. -/
def toMessage (m : MapMessage) : Message where
  text := m.text
  addTo := some m.addTo
  simple := none
  multiformat := some m.multiformat
  object := none

end MapMessage

end LogRendering
