import LogRendering.Failure.Layout
import LogRendering.Field.Json
import LogRendering.Rendering

/-!
# Sinks of JSON values

A sink takes complete JSON values: a text that it quotes, a text that is JSON already, a
field value, or a text that is still to be formatted.  Unless it knows a better way it
formats such a text into a new buffer first.
-/

namespace LogRendering

/-- Why a step did not succeed: it reported an `error`, or it was abandoned with an `abort`. -/
inductive Halt where
  | failed (error : LayoutError)
  | aborted (abort : Abort)
deriving DecidableEq

/-- The result of a step on a sink of type `σ`, and the sink afterwards. -/
abbrev Step (σ : Type) : Type :=
  Except Halt Unit × σ

/-- The step that depends on a text, which may be abandoned before the `sink` is reached. -/
def stepWith {σ α : Type} (sink : σ) (value : Except Abort α) (step : α → Step σ) : Step σ :=
  match value with
  | .ok a => step a
  | .error abort => (.error (.aborted abort), sink)

/-- A destination of JSON values, which takes texts by `writeText`, `writeRaw` and
`writeFormattable`, and field values by `writeField`. -/
class JsonSink (σ : Type) where
  /-- Writes a text between quotes. -/
  writeText : σ → String → Step σ
  /-- Writes a text that is JSON as it is. -/
  writeRaw : σ → String → Step σ
  /-- Writes a field value. -/
  writeField : σ → FieldValue → Step σ
  /-- Writes a text that is added to a buffer, between quotes. -/
  writeFormattable : σ → (String → Draft) → Step σ :=
    fun sink addTo => stepWith sink (addTo "").result (writeText sink)

end LogRendering
