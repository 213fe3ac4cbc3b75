import LogRendering.Charset
import LogRendering.Failure.Device
import LogRendering.Json.Fault

/-!
# Failures of layouts

What can go wrong while events are written: the output fails, a JSON text is at fault, a
configuration cannot be used, or the trace of a thrown error cannot be captured.
-/

namespace LogRendering

/-- A failure of a layout: of its `output`, of a `json` text, of its configuration, or of the
capture of a trace. -/
inductive LayoutError where
  | output (failure : DeviceFailure)
  | json (fault : Json.Fault)
  | invalidConfiguration (component detail : String)
  | traceCapture (errorType detail : String)
deriving DecidableEq

/-- A failure that a reader or a writer of JSON reports: of the `device`, or of the `text`. -/
inductive JsonFailure where
  | device (failure : DeviceFailure)
  | text (fault : Json.Fault)
deriving DecidableEq

namespace LayoutError

/-- A `JsonFailure` as a failure of the layout; one of the `device` is one of the `output`, with
the same `DeviceFailure`. -/
def ofJsonFailure : JsonFailure → LayoutError
  | .device failure => output failure
  | .text fault => json fault

/-- The failure is one of the `output`. -/
def isOutput : LayoutError → Bool
  | output _ => true
  | _ => false

/-- The text of a failure. -/
def message : LayoutError → String
  | output failure => "IO error: " ++ failure.message
  | json fault => "JSON error: " ++ fault.message
  | invalidConfiguration component detail =>
    "Invalid configuration for " ++ component ++ ": " ++ detail
  | traceCapture errorType detail =>
    "Failed to capture trace of " ++ errorType ++ ": " ++ detail

end LayoutError

namespace Charset

/-- The charset that `ofName?` finds for `s`; another name is an invalid configuration. -/
def parse (s : String) : Except LayoutError Charset :=
  match ofName? s with
  | some charset => .ok charset
  | none => .error (.invalidConfiguration "charset" ("Unsupported charset: '" ++ s ++ "'"))

end Charset

end LogRendering
