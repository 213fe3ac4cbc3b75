import LogRendering.Proofs.Trace.Splitting

/-!
# Complete traces

The trace of an error whose texts are complete is made of entries, each with a line feed after
it: the text of the error, the frames of its backtrace, and its causes.  No line of it is lost
when it is captured, whatever line breaks the texts hold, and every line is shown.
-/

namespace LogRendering

open Charset

/-! ### Entries of traces -/

namespace Rendering

/-- Complete texts, one after the other. -/
theorem concat_map_eq_ofText
    {α : Type} {f : α → Rendering} {text : α → String} {as : List α}
    (h : ∀ a ∈ as, f a = .ofText (text a)) :
  concat (as.map f) = .ofText (String.join (as.map text))
  := by
  induction as with
  | nil => rfl
  | cons a as ih =>
      obtain ⟨ha, has⟩ := List.forall_mem_cons.mp h
      rw [List.map_cons, List.map_cons, concat, ha, ih has, ofText_append_ofText, String.join_cons]

theorem IsComplete.eq_ofText {r : Rendering} (h : r.IsComplete) :
  r = .ofText r.text
  := by
  obtain ⟨text, ending⟩ := r
  obtain rfl : ending = .complete := h
  rfl

end Rendering

namespace ThrownError

/-- The entries of the trace of `e`: its type and its text, its `frames`, and its causes. -/
def entries (e : ThrownError) (frames : List String) : List String :=
  (e.typeName ++ ": " ++ e.display.text)
    :: frames.map (fun frame => "    at " ++ frame)
    ++ e.causes.map (fun cause => "Caused by: " ++ cause.text)

/-- The frames of the backtrace of `e`, if it was `captured`. -/
theorem frames_of_captured {e : ThrownError} {text : String}
    (h : e.backtrace = some (.captured text)) :
  e.frames = Frame.entries text
  := by
  rw [frames, h]
  rfl

theorem frames_of_not_captured {e : ThrownError}
    (h : ∀ text, e.backtrace ≠ some (.captured text)) :
  e.frames = []
  := by
  unfold frames
  split
  next backtrace hbacktrace =>
    cases backtrace with
    | disabled => rfl
    | captured text => exact absurd hbacktrace (h text)
  next => rfl

/-- The trace of an error whose `texts` are complete is made of its `entries`. -/
theorem trace_eq_entries {e : ThrownError} (h : ∀ r ∈ e.texts, r.IsComplete) :
  e.trace = .ofText (String.join ((e.entries e.frames).map (· ++ "\n")))
  := by
  obtain ⟨hdisplay, hcauses⟩ := List.forall_mem_cons.mp h
  have hcause : ∀ cause ∈ e.causes, Rendering.ofText "Caused by: " ++ cause ++ .ofText "\n"
      = .ofText ("Caused by: " ++ cause.text ++ "\n") := by
    intro cause hmem
    conv => lhs; rw [(hcauses cause hmem).eq_ofText]
    rfl
  have htitled : e.titled ++ .ofText "\n"
      = .ofText (e.typeName ++ ": " ++ e.display.text ++ "\n") := by
    rw [titled, hdisplay.eq_ofText]
    rfl
  rw [trace, htitled, Rendering.concat_map_eq_ofText fun _ _ => rfl,
    Rendering.concat_map_eq_ofText hcause,
    Rendering.ofText_append_ofText, Rendering.ofText_append_ofText, entries, List.map_append,
    List.map_cons, List.map_map, List.map_map, String.join_append, String.join_cons]
  rfl

end ThrownError

/-! ### Lines of a text -/

namespace Trace

/-- The bytes of `text` are read line after line, without a failure. -/
theorem lineOutcomes_text
    {text : String} {lines : List (List Char)} (h : IsDivided '\n' text.toList lines []) :
  lineOutcomes (inMemory text.toUTF8.toList)
    = lines.map fun line => .ok (String.ofList (line ++ ['\n']))
  := by
  have hbytes : utf8.encode text
      = (lines.map fun line => utf8.encode (String.ofList line)).flatMap (· ++ [lineFeed]) := by
    rw [encode, h.eq_append, List.append_nil, List.flatMap_assoc, List.flatMap_map]
    apply List.flatMap_congr
    intro line _
    rw [encode, String.toList_ofList, List.flatMap_append]
    rfl
  have hfree : ∀ line ∈ lines.map fun line => utf8.encode (String.ofList line),
      lineFeed ∉ line := by
    rw [List.forall_mem_map]
    intro line hline hmem
    apply h.notMem_line line hline
    rw [← String.toList_ofList (l := line)]
    exact mem_of_mem_utf8_encode utf8EncodeChar_feed hmem
  have hsignals : signals (inMemory text.toUTF8.toList) = (utf8.encode text).map .byte ++ [] := by
    rw [signals_inMemory, toList_toUTF8, List.append_nil]
  have hnil : readLines [] [] = [] := rfl
  rw [lineOutcomes, hsignals, hbytes, readLines_lines hfree, hnil, List.append_nil, List.map_map]
  apply List.map_congr_left
  intro line _
  apply (decodeLine_eq_ok_iff _ _).mpr
  rw [String.ofList_append, encode_append]
  rfl

/-- A text of `entries` with a line feed after each is divided into lines, and nothing is
left. -/
theorem exists_isDivided_entries {entries : List String} (h : entries ≠ []) :
  ∃ lines, IsDivided '\n' (String.join (entries.map (· ++ "\n"))).toList lines []
  := by
  obtain ⟨lines, rest, hdivided⟩ :=
    exists_isDivided '\n' (String.join (entries.map (· ++ "\n"))).toList
  have hends : (String.join (entries.map (· ++ "\n"))).toList.getLast? = some '\n' := by
    obtain rfl | ⟨front, last, rfl⟩ := List.eq_nil_or_concat entries
    · contradiction
    · rw [List.concat_eq_append, List.map_append, String.join_append, String.toList_append,
        List.map_singleton, String.join_cons, String.join_nil, String.append_empty,
        String.toList_append, ← List.append_assoc]
      apply List.getLast?_concat
  obtain rfl := hdivided.rest_eq_nil hends
  exact ⟨lines, hdivided⟩

/-- The `lines` of a text are collected as their contents. -/
theorem collect_texts (lines : List (List Char)) :
  TraceLines.collect (lines.map fun line => .ok (String.ofList (line ++ ['\n'])))
    = pure (lines.map fun line => String.ofList (withoutFinal '\r' line))
  := by
  induction lines with
  | nil => rfl
  | cons line lines ih =>
      rw [List.map_cons, TraceLines.collect_ok, ih, String.toList_ofList,
        Text.lineContent_append_feed]
      rfl

/-- The contents of the `lines` of a text, put together with line feeds after them, are the text
with line breaks of one kind. -/
theorem join_contents_eq_withPlainBreaks
    {text : List Char} {lines : List (List Char)} (h : IsDivided '\n' text lines []) :
  (String.join ((lines.map fun line => String.ofList (withoutFinal '\r' line)).map
      (· ++ "\n"))).toList
    = Text.withPlainBreaks text
  := by
  obtain ⟨rfl, hlines, -⟩ := h
  rw [List.append_nil]
  induction lines with
  | nil => rfl
  | cons line lines ih =>
      obtain ⟨hline, hlines⟩ := List.forall_mem_cons.mp hlines
      rw [List.map_cons, List.map_cons, String.join_cons, String.toList_append, ih hlines,
        List.flatMap_cons, List.append_assoc, List.singleton_append,
        Text.withPlainBreaks_line hline, String.toList_append, String.toList_ofList,
        List.append_assoc]
      rfl

end Trace

/-! ### Traces in HTML -/

/-- Parts with `separator` between them are the first part, and the others with a separator
before each. -/
theorem intercalate_eq_append_join (separator first : String) (rest : List String) :
  separator.intercalate (first :: rest) = first ++ String.join (rest.map (separator ++ ·))
  := by
  induction rest generalizing first with
  | nil => rw [String.intercalate_singleton, List.map_nil, String.join_nil, String.append_empty]
  | cons second rest ih =>
      rw [String.intercalate_cons_cons, ih, List.map_cons, String.join_cons, String.append_assoc,
        String.append_assoc]

namespace Html

theorem render_traceLine (line : String) :
  render (traceLine line) = escape line ++ "\n"
  := by
  simp [render, traceLine, lineBreak, Token.render, escape, escapeChar]

theorem render_traceIndent :
  render traceIndent = "<br>&nbsp;&nbsp;&nbsp;&nbsp;"
  := by
  decide +kernel

/-- The `lines` of a trace are shown one after the other, with a break between them. -/
theorem render_traceTokens (lines : List String) :
  render (traceTokens ⟨lines⟩)
    = "<br>&nbsp;&nbsp;&nbsp;&nbsp;".intercalate (lines.map fun line => escape line ++ "\n")
  := by
  cases lines with
  | nil => rfl
  | cons first rest =>
      have hrest : render (rest.flatMap fun line => traceIndent ++ traceLine line)
          = String.join (rest.map fun line =>
            "<br>&nbsp;&nbsp;&nbsp;&nbsp;" ++ (escape line ++ "\n")) := by
        induction rest with
        | nil => rfl
        | cons line rest ih =>
            rw [List.flatMap_cons, render_append, render_append, render_traceIndent,
              render_traceLine, ih, List.map_cons, String.join_cons]
      rw [List.map_cons, intercalate_eq_append_join, List.map_map, traceTokens, render_append,
        render_traceLine, hrest]
      rfl

end Html

/-! ### Completeness -/

namespace ThrownError

/-- The trace of `e` shows the given `frames`, and is captured as the given `lines`: nothing of
it is lost, no line is merged with another, no failure to read it is met, and in HTML the lines
are shown one after the other with a break between them. -/
structure IsTold (e : ThrownError) (frames lines : List String) : Prop where
  frames_of_captured : ∀ text, e.backtrace = some (.captured text) → frames = Frame.entries text
  frames_of_not_captured : (∀ text, e.backtrace ≠ some (.captured text)) → frames = []
  trace : e.trace = .ofText (String.join ((e.entries frames).map (· ++ "\n")))
  outcomes : ∀ outcome ∈ Trace.lineOutcomes (Trace.inMemory e.trace.text.toUTF8.toList),
    ∃ line, outcome = .ok line
  capture : TraceLines.capture e = pure (.ok ⟨lines⟩)
  notMem : ∀ line ∈ lines, '\n' ∉ line.toList
  join : (String.join (lines.map (· ++ "\n"))).toList = Text.withPlainBreaks e.trace.text.toList
  html : Html.render <$> Html.thrownTokens e
    = pure ("<br>&nbsp;&nbsp;&nbsp;&nbsp;".intercalate
      (lines.map fun line => Html.escape line ++ "\n"))

/-- If each of `e.texts`, the text of the error and those of its causes, `IsComplete`, then
nothing of the trace is lost: there are frames and lines as which the error `IsTold`. -/
theorem exists_isTold_of_isComplete {e : ThrownError} (h : ∀ r ∈ e.texts, r.IsComplete) :
  ∃ frames lines, e.IsTold frames lines
  := by
  have htrace := trace_eq_entries h
  have hentries : e.entries e.frames ≠ [] := by
    unfold entries
    apply List.cons_ne_nil
  obtain ⟨lines, hdivided⟩ := Trace.exists_isDivided_entries hentries
  have houtcomes := Trace.lineOutcomes_text hdivided
  have hcapture : TraceLines.capture e
      = pure (.ok ⟨lines.map fun line => String.ofList (withoutFinal '\r' line)⟩) := by
    rw [TraceLines.capture, htrace, TraceLines.read, TraceLines.ofOutcomes]
    show Except.ok <$> TraceLines.mk <$> TraceLines.collect (Trace.lineOutcomes _) = _
    rw [Rendering.ofText, houtcomes, Trace.collect_texts]
    rfl
  use e.frames, lines.map fun line => String.ofList (withoutFinal '\r' line)
  refine ⟨fun _ => frames_of_captured, frames_of_not_captured, htrace, ?_, hcapture, ?_, ?_, ?_⟩
  · intro outcome hmem
    rw [htrace, Rendering.ofText, houtcomes] at hmem
    obtain ⟨line, -, rfl⟩ := List.mem_map.mp hmem
    exact ⟨_, rfl⟩
  · rw [List.forall_mem_map]
    intro line hline
    rw [String.toList_ofList]
    apply notMem_withoutFinal (hdivided.notMem_line line hline)
  · rw [htrace]
    apply Trace.join_contents_eq_withPlainBreaks hdivided
  · rw [Html.thrownTokens, TraceLines.captureOrEmpty, hcapture, ← Html.render_traceTokens]
    rfl

/-- An error with a frame and two causes, whose texts hold line breaks of both kinds. -/
def wrappedError : ThrownError :=
  ⟨"Failure", .ofText "it <failed>\r\nbadly", .leaf "Failure", [.ofText "", .ofText "a\rb\r"],
    some (.captured "   0: main\n             at main:1:2\n")⟩

/-- The trace of `wrappedError` is told completely. -/
theorem exists_isTold_wrappedError :
  (∀ r ∈ wrappedError.texts, r.IsComplete) ∧ ∃ frames lines, wrappedError.IsTold frames lines
  := by
  have hcomplete : ∀ r ∈ wrappedError.texts, r.IsComplete := by decide
  exact ⟨hcomplete, exists_isTold_of_isComplete hcomplete⟩

end ThrownError

end LogRendering
