import LogRendering.Proofs.Field.Parts
import LogRendering.Proofs.Html.View
import LogRendering.Proofs.Trace.Interruption

/-!
# Broken errors are contained

An error is broken if its text or the text of a cause is not complete.  There is no trace of
such an error, and nothing of it is shown: the rows of its event are those that the event has
without the error, and a row with an empty cell.  One remark is made, and the interrupt flag is
left alone.  An error that is not broken has a trace, and no remark is made.
-/

namespace LogRendering

namespace Rendering

/-! ### Where texts put together break -/

/-- What comes after a complete text decides how both end. -/
theorem IsComplete.ending_append {r : Rendering} (h : r.IsComplete) (s : Rendering) :
  (r ++ s).ending = s.ending
  := by
  rw [append_text_of_complete s h]

theorem ending_ofText_append (text : String) (r : Rendering) :
  (ofText text ++ r).ending = r.ending
  := (isComplete_ofText text).ending_append r

theorem ending_append_ofText (r : Rendering) (text : String) :
  (r ++ ofText text).ending = r.ending
  := by
  rw [ending_append]
  split
  next h => exact h.symm
  next => rfl

theorem ending_concat_map
    {f : Rendering → Rendering} (hf : ∀ r, (f r).ending = r.ending) (rs : List Rendering) :
  (concat (rs.map f)).ending = (concat rs).ending
  := by
  induction rs with
  | nil => rfl
  | cons r rs ih => rw [List.map_cons, concat, concat, ending_append, ending_append, hf, ih]

/-- Texts put together by `concat` end as the first of them that is not complete. -/
theorem ending_concat_of_break
    {before rest : List Rendering} {r : Rendering} (hbefore : ∀ s ∈ before, s.IsComplete)
    (hr : ¬ r.IsComplete) :
  (concat (before ++ r :: rest)).ending = r.ending
  := by
  induction before with
  | nil => rw [List.nil_append, concat, append_eq_left _ hr]
  | cons s before ih =>
      obtain ⟨hs, hbefore⟩ := List.forall_mem_cons.mp hbefore
      rw [List.cons_append, concat, hs.ending_append, ih hbefore]

end Rendering

/-! ### Broken errors -/

namespace ThrownError

/-- The texts of `e` and of its causes, the nearest first. -/
def texts (e : ThrownError) : List Rendering :=
  e.display :: e.causes

/-- One of `e.texts`, the text of the error or of a cause, does not satisfy `IsComplete`. -/
def IsBroken (e : ThrownError) : Prop :=
  ∃ r ∈ e.texts, ¬ r.IsComplete

/-- What is said of a text that ends in the given way: as `failed`, or as `aborted` with a
payload or without. -/
inductive IsDetail : Ending → String → Prop where
  | failed : IsDetail .failed "Display implementation returned an error"
  | payload (s : String) : IsDetail (.aborted ⟨some s⟩) s
  | unknown : IsDetail (.aborted ⟨none⟩) "Unknown panic"

/-- The first of `e.texts` that is not complete ends in the way that `detail` says. -/
def BreaksWith (e : ThrownError) (detail : String) : Prop :=
  ∃ before r rest, e.texts = before ++ r :: rest ∧ (∀ s ∈ before, s.IsComplete)
    ∧ IsDetail r.ending detail

/-- The trace of `e` ends as `e.texts` do, one after the other. -/
theorem ending_trace (e : ThrownError) :
  e.trace.ending = (Rendering.concat e.texts).ending
  := by
  have hframes : (Rendering.concat
      (e.frames.map fun frame => .ofText ("    at " ++ frame ++ "\n"))).IsComplete := by
    rw [Rendering.isComplete_concat_iff, List.forall_mem_map]
    intro frame _
    rfl
  have hcause : ∀ cause : Rendering,
      (Rendering.ofText "Caused by: " ++ cause ++ .ofText "\n").ending = cause.ending := by
    intro cause
    rw [Rendering.ending_append_ofText, Rendering.ending_ofText_append]
  have htitled : (e.titled ++ .ofText "\n").ending = e.display.ending := by
    rw [Rendering.ending_append_ofText, titled, Rendering.ending_ofText_append]
  rw [trace, texts, Rendering.concat, Rendering.append_assoc, Rendering.ending_append, htitled,
    hframes.ending_append, Rendering.ending_concat_map hcause, Rendering.ending_append]

theorem isComplete_trace_iff (e : ThrownError) :
  e.trace.IsComplete ↔ ¬ e.IsBroken
  := by
  have hending : e.trace.IsComplete ↔ (Rendering.concat e.texts).IsComplete :=
    iff_of_eq (congrArg (· = Ending.complete) e.ending_trace)
  rw [hending, Rendering.isComplete_concat_iff, IsBroken]
  simp

/-- An error that `IsBroken` has a first text that is not complete, and its trace ends as this
text. -/
theorem IsBroken.exists_breaksWith {e : ThrownError} (h : e.IsBroken) :
  ∃ detail, e.BreaksWith detail ∧ IsDetail e.trace.ending detail
  := by
  obtain ⟨s, hs, hbreaks⟩ := h
  have hfind : (e.texts.find? fun r => ¬ r.IsComplete).isSome :=
    List.find?_isSome.mpr ⟨s, hs, decide_eq_true hbreaks⟩
  obtain ⟨r, hfirst⟩ := Option.isSome_iff_exists.mp hfind
  obtain ⟨hdecide, before, rest, htexts, hbefore⟩ := List.find?_eq_some_iff_append.mp hfirst
  have hr : ¬ r.IsComplete := of_decide_eq_true hdecide
  have hcomplete : ∀ s ∈ before, s.IsComplete := by
    intro s hs
    simpa using hbefore s hs
  have hdetail : ∃ detail, IsDetail r.ending detail := by
    cases hending : r.ending with
    | complete => exact absurd hending hr
    | failed => exact ⟨_, .failed⟩
    | aborted abort =>
        obtain ⟨payload⟩ := abort
        cases payload with
        | none => exact ⟨_, .unknown⟩
        | some s => exact ⟨s, .payload s⟩
  obtain ⟨detail, hdetail⟩ := hdetail
  refine ⟨detail, ⟨before, r, rest, htexts, hcomplete, hdetail⟩, ?_⟩
  rwa [ending_trace, htexts, Rendering.ending_concat_of_break hcomplete hr]

end ThrownError

/-! ### Capturing -/

namespace TraceLines

theorem diagnostics_collect (outcomes : List (Except DeviceFailure String)) :
  (collect outcomes).diagnostics = []
  := by
  induction outcomes with
  | nil => rfl
  | cons outcome outcomes ih =>
      cases outcome with
      | ok line => rw [collect_ok, ih]
      | error e => rw [collect_error]

/-- Reading from `bytes` alone leaves nothing behind. -/
theorem read_inMemory_eq_pure (bytes : List UInt8) :
  read (Trace.inMemory bytes) = pure (read (Trace.inMemory bytes)).value
  := by
  apply Reported.eq_pure
  · show _ ++ [] = []
    rw [List.append_nil, diagnostics_collect]
  · rw [Trace.interrupts_read, Trace.signals_inMemory, ← List.append_nil (bytes.map _)]
    cases hpending : Trace.pendingAfter [] (bytes.map .byte) with
    | none => apply Trace.interrupts_linesFrom_bytes hpending
    | some pending =>
        rw [Trace.interrupts_linesFrom_append hpending, Trace.interrupts_linesFrom_nil]

/-- An error with a trace that `IsComplete` is captured, and nothing is left behind. -/
theorem capture_of_isComplete {e : ThrownError} (h : e.trace.IsComplete) :
  ∃ lines, capture e = pure (.ok lines)
  := by
  use (read (Trace.inMemory e.trace.text.toUTF8.toList)).value
  rw [capture, h, read_inMemory_eq_pure]
  rfl

/-- An error whose trace ends as `detail` says is not captured. -/
theorem capture_of_isDetail
    {e : ThrownError} {detail : String} (h : ThrownError.IsDetail e.trace.ending detail) :
  capture e = pure (.error (.traceCapture e.typeName detail))
  := by
  rw [capture]
  generalize e.trace.ending = ending at h
  cases h with
  | failed => rfl
  | payload s => rfl
  | unknown => rfl

end TraceLines

namespace Html.RowRenderer

variable (r : RowRenderer) {event : Event} {message : String} {e : ThrownError}

/-- The text of the rows that `event` has whatever its error is. -/
def ownRowsText (event : Event) (message : String) : String :=
  Html.render (r.mainRow event message ++ r.stackRow event.stack ++ r.mapRow event.map)

/-- The rows that `event` has without its error. -/
theorem renderText_without_error (hmessage : event.message.text = .ok message) :
  r.renderText { event with thrown := none } = pure (.ok (r.ownRowsText event message))
  := by
  rw [renderText, tokens, hmessage, ownRowsText, ← List.append_nil (_ ++ _ ++ _)]
  rfl

/-- The row for the lines `trace`. -/
def traceRow (trace : TraceLines) : List Token :=
  wideRow
    [.of "bgcolor" "#993300", .of "style" "color:White; font-size : xx-small;", r.allColumns]
    (traceTokens trace)

/-- The row of the error `e` comes after the other rows of its event, and what is left behind is
what `captureOrEmpty` leaves behind. -/
theorem renderText_of_some
    (hmessage : event.message.text = .ok message) (hthrown : event.thrown = some e)
    {trace : Reported TraceLines} (htrace : TraceLines.captureOrEmpty e = trace) :
  r.renderText event
    = ⟨.ok (r.ownRowsText event message ++ Html.render (r.traceRow trace.value)),
      trace.diagnostics, trace.interrupts⟩
  := by
  have hrow : (r.thrownRow e).value = r.traceRow trace.value := by
    rw [← htrace]
    rfl
  rw [renderText, tokens, hmessage, hthrown]
  apply Reported.ext
  · simp [thrownRow?, hrow, Except.map, render_append, ownRowsText, String.append_assoc]
  · simp [thrownRow?, thrownRow, thrownTokens, htrace]
  · simp [thrownRow?, thrownRow, thrownTokens, htrace]

/-- The text of a row with an empty cell across all columns, in the colours of a trace. -/
def emptyTraceText (r : RowRenderer) : String :=
  "<tr><td bgcolor=\"#993300\" style=\"color:White; font-size : xx-small;\" colspan=\""
    ++ naturalText r.columns ++ "\"></td></tr>\n"

theorem render_traceRow_empty :
  Html.render (r.traceRow .empty) = r.emptyTraceText
  := by
  unfold traceRow emptyTraceText allColumns columns columnCount
  cases r.showsLocation with
  | false => decide +kernel
  | true => decide +kernel

end Html.RowRenderer

/-! ### Containment -/

namespace ThrownError

/-- The remark on the error `e` that has no trace, for the reason `detail`. -/
def remark (e : ThrownError) (detail : String) : Diagnostic where
  level := .debug
  message := "Rendering thrown error without trace"
  fields := [("error", "Failed to capture trace of " ++ e.typeName ++ ": " ++ detail)]

/-- There is no trace of the error `e` of `event`, for the reason `detail`, and nothing but the
trace is missing from the rows of the event: they are `rows`, and a row with an empty cell.  One
remark is made, and the interrupt flag is not raised. -/
structure IsContained
    (r : Html.RowRenderer) (event : Event) (rows : String) (e : ThrownError)
    (detail : String) : Prop where
  breaks : e.BreaksWith detail
  capture : TraceLines.capture e = pure (.error (.traceCapture e.typeName detail))
  captureOrEmpty : TraceLines.captureOrEmpty e = ⟨⟨[]⟩, [e.remark detail], false⟩
  renderText : r.renderText event = ⟨.ok (rows ++ r.emptyTraceText), [e.remark detail], false⟩

/-- An error that `IsBroken` satisfies `IsContained`: the rows of its event are those of the
event without the error, and a row with an empty cell.  An error that is not broken is captured,
and nothing is left behind. -/
theorem broken_is_contained
    (r : Html.RowRenderer) {event : Event} {message : String} {e : ThrownError}
    (hmessage : event.message.text = .ok message) (hthrown : event.thrown = some e) :
  ∃ rows, r.renderText { event with thrown := none } = pure (.ok rows)
    ∧ (e.IsBroken → ∃ detail, e.IsContained r event rows detail)
    ∧ (¬ e.IsBroken → ∃ lines row,
      TraceLines.capture e = pure (.ok lines)
        ∧ TraceLines.captureOrEmpty e = pure lines
        ∧ r.renderText event = pure (.ok (rows ++ row)))
  := by
  refine ⟨r.ownRowsText event message, r.renderText_without_error hmessage, ?_, ?_⟩
  · intro hbroken
    obtain ⟨detail, hbreaks, hdetail⟩ := hbroken.exists_breaksWith
    have hcapture := TraceLines.capture_of_isDetail hdetail
    have hempty : TraceLines.captureOrEmpty e = ⟨.empty, [e.remark detail], false⟩ := by
      rw [TraceLines.captureOrEmpty, hcapture]
      rfl
    refine ⟨detail, hbreaks, hcapture, hempty, ?_⟩
    rw [r.renderText_of_some hmessage hthrown hempty, r.render_traceRow_empty]
  · intro hsound
    obtain ⟨lines, hcapture⟩ := TraceLines.capture_of_isComplete (e.isComplete_trace_iff.mpr hsound)
    have hlines : TraceLines.captureOrEmpty e = pure lines := by
      rw [TraceLines.captureOrEmpty, hcapture]
      rfl
    exact ⟨lines, _, hcapture, hlines, r.renderText_of_some hmessage hthrown hlines⟩

/-- An error of which the second cause is `aborted` after a part of its text, without a
payload. -/
def brokenCause : ThrownError :=
  ⟨"Failure", .ofText "it failed", .leaf "Failure",
    [.ofText "for this", ⟨"and for th", .aborted ⟨none⟩⟩, ⟨"", .failed⟩], none⟩

/-- An event with context and the error `brokenCause`. -/
def brokenEvent : Event where
  logger := ""
  level := .error
  message := .ofText "no <answer>"
  thread := "main"
  time := 12
  stack := ⟨["request"]⟩
  map := ContextMap.empty.insert "user" "alice"
  thrown := some brokenCause
  source := none

/-- The error of `brokenEvent` is contained. -/
theorem broken_is_contained_brokenEvent :
  brokenEvent.message.text = .ok "no <answer>" ∧ brokenEvent.thrown = some brokenCause
    ∧ brokenCause.IsBroken
    ∧ ∃ rows,
      Html.RowRenderer.renderText ⟨true, ⟨0⟩, .utf8⟩ { brokenEvent with thrown := none }
          = pure (.ok rows)
        ∧ (brokenCause.IsBroken →
          ∃ detail, brokenCause.IsContained ⟨true, ⟨0⟩, .utf8⟩ brokenEvent rows detail)
        ∧ (¬ brokenCause.IsBroken → ∃ lines row,
          TraceLines.capture brokenCause = pure (.ok lines)
            ∧ TraceLines.captureOrEmpty brokenCause = pure lines
            ∧ Html.RowRenderer.renderText ⟨true, ⟨0⟩, .utf8⟩ brokenEvent
              = pure (.ok (rows ++ row)))
  := by
  have hbroken : brokenCause.IsBroken := ⟨⟨"and for th", .aborted ⟨none⟩⟩, by decide, by decide⟩
  exact ⟨rfl, rfl, hbroken, broken_is_contained ⟨true, ⟨0⟩, .utf8⟩ rfl rfl⟩

end ThrownError

end LogRendering
