import LogRendering.Context.Map
import LogRendering.Context.Stack
import LogRendering.Level
import LogRendering.Message.Basic
import LogRendering.Thrown.Error

/-!
# Events

Everything that one log call captures.
-/

namespace LogRendering

/-- A thread, by its name if it has one and by its number. -/
structure Thread where
  name : Option String
  number : Nat

/-- The label of a thread: its `name`, or its `number` if it has none. -/
def Thread.label (thread : Thread) : String :=
  thread.name.getD ("ThreadId(" ++ naturalText thread.number ++ ")")

/-- The place of a log call in the source code. -/
structure SourceLocation where
  file : String
  line : UInt32
  modulePath : Option String
deriving DecidableEq

/-- The text of a place: the `file` and the `line`. -/
def SourceLocation.display (source : SourceLocation) : String :=
  source.file ++ ":" ++ naturalText source.line.toNat

/-- What one log call captures.  The `time` is in milliseconds since the Unix epoch. -/
structure Event where
  logger : String
  level : Level
  message : Message
  thread : String
  time : Int64
  stack : ContextStack
  map : ContextMap
  thrown : Option ThrownError
  source : Option SourceLocation

/-- The event of a log call in the given `thread` at the given `time`, without context, thrown
error or source. -/
def Event.create (thread : Thread) (time : Int64) (logger : String) (level : Level)
    (message : Message) : Event where
  logger := logger
  level := level
  message := message
  thread := thread.label
  time := time
  stack := default
  map := default
  thrown := none
  source := none

end LogRendering
