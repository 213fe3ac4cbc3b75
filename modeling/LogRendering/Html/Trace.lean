import LogRendering.Html.Markup
import LogRendering.Trace.Lines

/-!
# Traces in HTML

The lines of a trace, every line but the first after a line break and four hard spaces.
-/

namespace LogRendering.Html

/-- What comes before every line of a trace but the first: a break `br` and four hard spaces. -/
def traceIndent : List Token :=
  [.opening "br" [], .hardSpace, .hardSpace, .hardSpace, .hardSpace]

/-- A line of a trace. -/
def traceLine (line : String) : List Token :=
  [.text line, lineBreak]

/-- The lines of a trace, all but the first after a `traceIndent`. -/
def traceTokens (trace : TraceLines) : List Token :=
  match trace.lines with
  | [] => []
  | first :: rest => traceLine first ++ rest.flatMap fun line => traceIndent ++ traceLine line

/-- The tokens of the trace of a thrown error, which is empty if `TraceLines.capture` fails. -/
def thrownTokens (e : ThrownError) : Reported (List Token) := do
  return traceTokens (← TraceLines.captureOrEmpty e)

end LogRendering.Html
