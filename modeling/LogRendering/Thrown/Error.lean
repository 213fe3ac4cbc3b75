import LogRendering.Failure.Device
import LogRendering.Inspection
import LogRendering.Rendering
import LogRendering.Thrown.Frame

/-!
# Thrown errors

An error captured with an event: the name of its type, its text, the texts of its causes,
and optionally a backtrace.  The trace of an error gives these one below the other.
-/

namespace LogRendering

/-- A backtrace: `disabled`, or `captured` with the given text. -/
inductive Backtrace where
  | disabled
  | captured (text : String)
deriving DecidableEq

/-- The entries of the frames of a backtrace, by `Frame.entries`. -/
def Backtrace.frames : Backtrace → List String
  | disabled => []
  | captured text => Frame.entries text

/-- An error captured with an event.  Its texts are `Rendering`s, since each of them may fail. -/
structure ThrownError where
  typeName : String
  /-- The text of the error. -/
  display : Rendering
  /-- The inspection of the error. -/
  inspection : Inspection
  /-- The texts of the causes, the nearest first. -/
  causes : List Rendering
  backtrace : Option Backtrace

namespace ThrownError

/-- The text of a thrown error: its type `typeName`, and its text. -/
def titled (e : ThrownError) : Rendering :=
  .ofText (e.typeName ++ ": ") ++ e.display

/-- The entries of the frames, if `e` has a backtrace that was captured. -/
def frames (e : ThrownError) : List String :=
  match e.backtrace with
  | some backtrace => backtrace.frames
  | none => []

/-- The trace of a thrown error: its `titled` text, its `frames` and its `causes`, each on a
line.  It fails as soon as one of these texts does. -/
def trace (e : ThrownError) : Rendering :=
  (e.titled ++ .ofText "\n")
    ++ Rendering.concat (e.frames.map fun frame => .ofText ("    at " ++ frame ++ "\n"))
    ++ Rendering.concat
      (e.causes.map fun cause => .ofText "Caused by: " ++ cause ++ .ofText "\n")

/-- The inspection of a thrown error, which does not show its `causes`. -/
def inspect (e : ThrownError) : Inspection :=
  .record "ThrownError"
    [("type_name", .ofText e.typeName), ("error", e.inspection),
      ("has_backtrace", .ofBool e.backtrace.isSome)]

end ThrownError

/-- The inspection of a failure of a device, by its `detail`. -/
def DeviceFailure.inspect (e : DeviceFailure) : Inspection :=
  match e.detail with
  | .none => .tuple "Kind" [.leaf e.kind.name]
  | .text s => .record "Custom" [("kind", .leaf e.kind.name), ("error", .ofText s)]
  | .system description code =>
    .record "Os"
      [("code", .leaf (integerText code)), ("kind", .leaf e.kind.name),
        ("message", .ofText description)]

end LogRendering
