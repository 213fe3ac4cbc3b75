import LogRendering.Failure.Layout
import LogRendering.Reported
import LogRendering.Thrown.Error
import LogRendering.Trace.Source

/-!
# Trace lines

The lines of the trace of a thrown error.  Reading stops at the first failure, whose
description takes the place of the lines that are left; if the failure cut a blocking
operation short, the interrupt flag of the thread is raised.  Capturing the trace of an
error fails if the text of the error or of a cause does, and it contains that failure.
-/

namespace LogRendering

/-- The `lines` of a trace, without their ends. -/
structure TraceLines where
  lines : List String
deriving DecidableEq

namespace TraceLines

/-- The trace without lines. -/
def empty : TraceLines :=
  ⟨[]⟩

/-- The lines up to the first failure, and then the description of that failure.  The failure
raises the interrupt flag if it satisfies `isInterruption`. -/
def collect : List (Except DeviceFailure String) → Reported (List String)
  | [] => return []
  | .ok line :: rest => do
    return String.ofList (Text.lineContent line.toList) :: (← collect rest)
  | .error e :: _ => do
    if e.isInterruption then Reported.interrupt
    return [e.message]

theorem collect_ok (line : String) (outcomes : List (Except DeviceFailure String)) :
  collect (.ok line :: outcomes)
    = ⟨String.ofList (Text.lineContent line.toList) :: (collect outcomes).value,
      (collect outcomes).diagnostics, (collect outcomes).interrupts⟩
  := by
  rw [collect]
  apply Reported.ext
  · rfl
  · apply List.append_nil
  · apply Bool.or_false

theorem collect_error (e : DeviceFailure) (outcomes : List (Except DeviceFailure String)) :
  collect (.error e :: outcomes) = ⟨[e.message], [], e.isInterruption⟩
  := by
  rw [collect]
  cases e.isInterruption with
  | true => rfl
  | false => rfl

/-- The lines that `collect` makes of a sequence of outcomes. -/
def ofOutcomes (outcomes : List (Except DeviceFailure String)) : Reported TraceLines :=
  TraceLines.mk <$> collect outcomes

/-- The lines that are read from a `source`. -/
def read (source : List Trace.Delivery) : Reported TraceLines :=
  ofOutcomes (Trace.lineOutcomes source)

/-- The description of an `Abort` that left no text. -/
def unknownAbort : String :=
  "Unknown panic"

/-- The lines of the trace of an error, or, if the trace is not complete, the failure
`traceCapture` with the type of the error. -/
def capture (e : ThrownError) : Reported (Except LayoutError TraceLines) :=
  match e.trace.ending with
  | .complete => .ok <$> read (Trace.inMemory e.trace.text.toUTF8.toList)
  | .failed =>
    return .error (.traceCapture e.typeName "Display implementation returned an error")
  | .aborted abort =>
    return .error (.traceCapture e.typeName (abort.payload.getD unknownAbort))

/-- The remark that an error is rendered without its trace, because of the failure `e`. -/
def withoutTrace (e : LayoutError) : Diagnostic where
  level := .debug
  message := "Rendering thrown error without trace"
  fields := [("error", e.message)]

/-- The lines of the trace of an error; none, with the remark `withoutTrace`, if `capture`
fails. -/
def captureOrEmpty (e : ThrownError) : Reported TraceLines := do
  match ← capture e with
  | .ok lines => return lines
  | .error failure => do
    Reported.remark (withoutTrace failure)
    return empty

end TraceLines

end LogRendering
