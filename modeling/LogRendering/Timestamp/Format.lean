import LogRendering.Json.Decode
import LogRendering.Json.Writer
import LogRendering.Reported
import LogRendering.Text.Quoted
import LogRendering.Timestamp.Field

/-!
# Timestamp formats

The ways in which the time of a session is shown: four built-in forms, and patterns.  A
pattern without a text gives the classic form; a pattern with an invalid item may be
replaced by the classic form beforehand, with a warning.
-/

namespace LogRendering

open Calendar (Instant)

/-- A form of the text of an instant, which `format` gives. -/
inductive TimestampFormat where
  | classic
  | iso8601
  | rfc3339
  | unixMillis
  | custom (pattern : String)
deriving DecidableEq

namespace TimestampFormat

instance : Inhabited TimestampFormat := ⟨classic⟩

/-- The pattern of the classic form. -/
def classicPattern : String :=
  "%a %b %d %H:%M:%S UTC %Y"

/-- The pattern of the form of ISO 8601. -/
def iso8601Pattern : String :=
  "%Y-%m-%dT%H:%M:%S%.3fZ"

/-- The text of an instant by a pattern, if each of the `Timestamp.items` of the pattern has
one. -/
def patternText? (pattern : String) (t : Instant) : Option String :=
  (Timestamp.itemsText? t (Timestamp.items pattern)).map String.ofList

/-- The text of an instant by the `classicPattern`. -/
def classicText (t : Instant) : String :=
  (patternText? classicPattern t).getD ""

/-- The text of an instant in the form `f`; in the classic one if a `custom` pattern gives no
text. -/
def format (f : TimestampFormat) (t : Instant) : String :=
  match f with
  | classic => classicText t
  | iso8601 => (patternText? iso8601Pattern t).getD ""
  | rfc3339 => String.ofList (Timestamp.rfc3339Text t)
  | unixMillis => integerText t.milliseconds
  | custom pattern => (patternText? pattern t).getD (classicText t)

/-- The format has no item that is `invalid`.  Only a `custom` pattern can have one. -/
def isValid : TimestampFormat → Bool
  | custom pattern => !(Timestamp.items pattern).contains .invalid
  | _ => true

/-- The inspection of a format, as the warning `invalid` shows it. -/
def inspection : TimestampFormat → String
  | classic => "Classic"
  | iso8601 => "Iso8601"
  | rfc3339 => "Rfc3339"
  | unixMillis => "UnixMillis"
  | custom pattern => "Custom(" ++ Text.quoted pattern ++ ")"

/-- The complaint about a format that does not satisfy `isValid`. -/
def invalid (f : TimestampFormat) : Diagnostic where
  level := .warn
  message :=
    "Timestamp format " ++ f.inspection ++ " is not valid for layout, using classic format"
  fields := [("format", f.inspection)]

/-- The format itself if it satisfies `isValid`, and otherwise the `classic` one, with the
warning `invalid`. -/
def resolve (f : TimestampFormat) : Reported TimestampFormat := do
  if f.isValid then return f
  else
    Reported.remark f.invalid
    return classic

/-- The JSON value of a format, which `ofJsonText` reads back. -/
def toJson : TimestampFormat → Json.Value
  | classic => .text "Classic"
  | iso8601 => .text "Iso8601"
  | rfc3339 => .text "Rfc3339"
  | unixMillis => .text "UnixMillis"
  | custom pattern => .object [("Custom", .text pattern)]

/-- The format that a JSON text denotes: a name, or an object with the pattern of `Custom`. -/
def ofJsonText (s : String) : Except Json.Fault TimestampFormat :=
  (Json.Reader.choiceOf
    [("Classic", .plain classic), ("Iso8601", .plain iso8601), ("Rfc3339", .plain rfc3339),
      ("UnixMillis", .plain unixMillis),
      ("Custom", .holding (custom <$> Json.Reader.textValue))]).run s

end TimestampFormat

end LogRendering
