import LogRendering.Text.UpperCase

/-!
# Levels

The six severities of an event, in increasing order, with their names.  A level is read
from its name in any case; `WARNING` is a second name of `WARN`.
-/

namespace LogRendering

/-- The severity of an event; `rank` orders the levels. -/
inductive Level where
  | trace
  | debug
  | info
  | warn
  | error
  | fatal
deriving DecidableEq

/-- The failure of `Level.parse` at a `text` that names no level. -/
structure UnknownLevel where
  text : String
deriving DecidableEq

/-- The complaint about a text that names no level quotes that text. -/
def UnknownLevel.message (e : UnknownLevel) : String :=
  "Invalid log level: '" ++ e.text ++ "'"

namespace Level

/-- The place of a level in the order of severity. -/
def rank : Level → Nat
  | trace => 0
  | debug => 1
  | info => 2
  | warn => 3
  | error => 4
  | fatal => 5

/-- The level of an event that does not say. -/
instance : Inhabited Level := ⟨info⟩

instance : Ord Level := ⟨fun a b => compare a.rank b.rank⟩

/-- The level is at least as severe as `other`, by `rank`. -/
def isAtLeast (level other : Level) : Bool :=
  other.rank ≤ level.rank

/-- The name of a level, in upper case. -/
def name : Level → String
  | trace => "TRACE"
  | debug => "DEBUG"
  | info => "INFO"
  | warn => "WARN"
  | error => "ERROR"
  | fatal => "FATAL"

/-- The level with the given name in upper case; `WARN` has the second name `WARNING`. -/
def ofUpperName? (s : String) : Option Level :=
  if s = "TRACE" then some trace
  else if s = "DEBUG" then some debug
  else if s = "INFO" then some info
  else if s = "WARN" || s = "WARNING" then some warn
  else if s = "ERROR" then some error
  else if s = "FATAL" then some fatal
  else none

/-- The level named by a text, whatever the case of its letters: `ofUpperName?` of the text in
upper case. -/
def parse (s : String) : Except UnknownLevel Level :=
  match ofUpperName? (Text.upper s) with
  | some level => .ok level
  | none => .error ⟨s⟩

end Level

end LogRendering
