import LogRendering.Json.Decode
import LogRendering.Json.Writer
import LogRendering.Level

/-!
# Levels in JSON

In JSON a level is a choice among six capitalised names.
-/

namespace LogRendering.Level

/-- The levels in the order of severity, by `rank`. -/
def all : List Level :=
  [trace, debug, info, warn, error, fatal]

/-- The name of a level in JSON, which `ofJsonText` reads back. -/
def jsonName : Level → String
  | trace => "Trace"
  | debug => "Debug"
  | info => "Info"
  | warn => "Warn"
  | error => "Error"
  | fatal => "Fatal"

/-- The JSON value of a level: its `jsonName`. -/
def toJson (level : Level) : Json.Value :=
  .text level.jsonName

/-- The level of which a JSON text is the `jsonName`. -/
def ofJsonText (s : String) : Except Json.Fault Level :=
  (Json.Reader.choiceOf (all.map fun level => (level.jsonName, .plain level))).run s

end LogRendering.Level
