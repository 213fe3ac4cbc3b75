import LogRendering.Html.Row
import LogRendering.Proofs.Html.Tree
import Mathlib.Tactic.Convert

/-!
# Views of events

What the rows of an event show, and the nodes of these rows as a function of it.  The rows
of an event denote the nodes of its view, so that the text of rows is read back as the
nodes of the views of the events.
-/

namespace LogRendering

/-- The time `elapsed` is the difference of the times, confined to 64 bits. -/
theorem Session.toInt_elapsed (session : Session) (time : Int64) :
  (session.elapsed time).toInt
    = max Int64.minValue.toInt (min Int64.maxValue.toInt (time.toInt - session.start.toInt))
  := by
  have hmin : Int64.minValue.toInt = -0x8000000000000000 := rfl
  have hmax : Int64.maxValue.toInt = 0x7FFFFFFFFFFFFFFF := rfl
  unfold Session.elapsed saturate
  split
  · omega
  · split
    · omega
    · rw [Int64.toInt_ofInt_of_le]
      all_goals omega

namespace Html

/-- What the rows of an event show; `RowRenderer.viewOf` gives it. -/
structure EventView where
  /-- The milliseconds since the start of the session, confined to 64 bits with sign. -/
  elapsed : Int
  thread : String
  level : Level
  logger : String
  /-- The place of the log call, which may be unknown, if there is a column for it. -/
  location : Option (Option (String × UInt32))
  message : String
  /-- The text of the context stack, unless it is empty. -/
  stack : Option String
  /-- The text of the context map, unless it is empty. -/
  map : Option String
  /-- The lines of the trace of the thrown error, if there is one. -/
  trace : Option (List String)
deriving DecidableEq

namespace RowRenderer

variable (r : RowRenderer)

/-- The view of `event`, whose message has the text `message`. -/
def viewOf (event : Event) (message : String) : EventView where
  elapsed :=
    max Int64.minValue.toInt
      (min Int64.maxValue.toInt (event.time.toInt - r.session.start.toInt))
  thread := event.thread
  level := event.level
  logger := if event.logger = "" then "root" else event.logger
  location :=
    if r.showsLocation then some (event.source.map fun source => (source.file, source.line))
    else none
  message := message
  stack := if event.stack.isEmpty then none else some event.stack.display
  map := if event.map.isEmpty then none else some event.map.display
  trace := event.thrown.map fun e => (TraceLines.captureOrEmpty e).value.lines

/-- The view of `event`.  There is none if the text of its message ends in an `Abort`. -/
def view (event : Event) : Except Abort EventView :=
  event.message.text.map (r.viewOf event)

/-- The rows of `event`, whose message has the text `message`. -/
def rows (event : Event) (message : String) : List Token :=
  r.mainRow event message ++ r.stackRow event.stack ++ r.mapRow event.map
    ++ (r.thrownRow? event.thrown).value

theorem value_renderText (event : Event) :
  (r.renderText event).value
    = event.message.text.map fun message => Html.render (r.rows event message)
  := by
  unfold renderText tokens rows
  cases event.message.text with
  | error abort => rfl
  | ok message => rfl

end RowRenderer

/-! ### Nodes of a view -/

/-- An element with `attributes` as they are written. -/
def elementNode (name : String) (attributes : List Attribute) (content : List Node) : Node :=
  .element name (attributes.map Attribute.read) content

/-- The nodes of the text `s` after `escape`. -/
def textNodes (s : String) : List Node :=
  charNodes (escape s)

/-- The nodes of a cell `td` of the main row. -/
def cellNodes (attributes : List Attribute) (content : List Node) : List Node :=
  [elementNode "td" attributes content, .char '\n']

/-- The nodes of `levelTokens level`. -/
def levelNodes (level : Level) : List Node :=
  let name := textNodes level.name
  if level = .debug then [elementNode "font" [.of "color" "#339933"] name]
  else if level.isAtLeast .warn then
    [elementNode "font" [.of "color" "#993300"] [elementNode "strong" [] name]]
  else name

/-- The text of a place, `?:?` if it is not known. -/
def placeText : Option (String × UInt32) → String
  | some (file, line) => file ++ ":" ++ naturalText line.toNat
  | none => "?:?"

/-- The nodes of the cell with the `placeText`. -/
def placeNodes (place : Option (String × UInt32)) : List Node :=
  cellNodes [] (textNodes (placeText place))

/-- The nodes of a row with a single cell. -/
def wideNodes (attributes : List Attribute) (content : List Node) : List Node :=
  [elementNode "tr" [] [elementNode "td" attributes content], .char '\n']

/-- The nodes of a line of a trace. -/
def traceLineNodes (line : String) : List Node :=
  textNodes line ++ [.char '\n']

/-- The nodes of `traceIndent`. -/
def traceIndentNodes : List Node :=
  elementNode "br" [] [] :: (charNodes "&nbsp;" ++ charNodes "&nbsp;" ++ charNodes "&nbsp;"
    ++ charNodes "&nbsp;")

/-- The nodes of the lines of a trace. -/
def traceNodes : List String → List Node
  | [] => []
  | first :: rest =>
    traceLineNodes first ++ rest.flatMap fun line => traceIndentNodes ++ traceLineNodes line

/-- The attributes of a cell for a part of the context. -/
def contextAttributes (columns : Nat) (title : String) : List Attribute :=
  [.of "bgcolor" "#EEEEEE", .of "style" "font-size : xx-small;",
    .of "colspan" (naturalText columns), .of "title" title]

/-- The attributes of a cell for a trace. -/
def traceAttributes (columns : Nat) : List Attribute :=
  [.of "bgcolor" "#993300", .of "style" "color:White; font-size : xx-small;",
    .of "colspan" (naturalText columns)]

/-- The `nodes` of a row that need not be there. -/
def optionalNodes {α : Type} (nodes : α → List Node) : Option α → List Node
  | none => []
  | some a => nodes a

namespace EventView

/-- The node of the main row of the view `v`. -/
def mainRow (v : EventView) : Node :=
  elementNode "tr" []
    (.char '\n' ::
      (cellNodes [] (textNodes (integerText v.elapsed))
        ++ cellNodes [.of "title" (v.thread ++ " thread")] (textNodes v.thread)
        ++ cellNodes [.of "title" "Level"] (levelNodes v.level)
        ++ cellNodes [.of "title" (v.logger ++ " category")] (textNodes v.logger)
        ++ optionalNodes placeNodes v.location
        ++ cellNodes [.of "title" "Message"] (textNodes v.message)))

/-- The nodes of the row for the context stack, whose text is `text`. -/
def stackNodes (columns : Nat) (text : String) : List Node :=
  wideNodes (contextAttributes columns "Nested Diagnostic Context")
    (textNodes ("NDC: " ++ text))

/-- The nodes of the row for the context map, whose text is `text`. -/
def mapNodes (columns : Nat) (text : String) : List Node :=
  wideNodes (contextAttributes columns "Mapped Diagnostic Context")
    (textNodes ("MDC: " ++ text))

/-- The nodes of the row for a thrown error with the lines `trace`. -/
def thrownNodes (columns : Nat) (trace : List String) : List Node :=
  wideNodes (traceAttributes columns) (traceNodes trace)

/-- The nodes of the rows of the view `v`. -/
def nodes (columns : Nat) (v : EventView) : List Node :=
  .char '\n' :: v.mainRow :: .char '\n' ::
    (optionalNodes (stackNodes columns) v.stack ++ (optionalNodes (mapNodes columns) v.map
      ++ optionalNodes (thrownNodes columns) v.trace))

end EventView

/-! ### The rows of an event denote the nodes of its view -/

/-- The text of two sequences of tokens, one after the other. -/
theorem render_append (tokens tokens' : List Token) :
  render (tokens ++ tokens') = render tokens ++ render tokens'
  := by
  simp [render]

/-- An opening tag is legible if its name and the `names` of its attributes satisfy `IsName`. -/
theorem isLegible_of_names
    {name : String} {attributes : List Attribute} (names : List String) (hname : IsName name)
    (hnames : attributes.map Attribute.name = names) (h : ∀ n ∈ names, IsName n) :
  (Token.opening name attributes).IsLegible
  := by
  constructor
  · apply hname
  · intro a ha
    apply h
    rw [← hnames]
    apply List.mem_map_of_mem ha

theorem denotes_cell
    (attributes : List Attribute) (names : List String) {tokens : List Token}
    {nodes : List Node} (hnames : attributes.map Attribute.name = names)
    (h : ∀ n ∈ names, IsName n) (hcontent : Denotes tokens nodes) :
  Denotes (cell attributes tokens) (cellNodes attributes nodes)
  := Denotes.elementLine (by decide) (isLegible_of_names names (by decide) hnames h) hcontent

theorem denotes_wideRow
    {attributes : List Attribute} (names : List String) {tokens : List Token}
    {nodes : List Node} (hnames : attributes.map Attribute.name = names)
    (h : ∀ n ∈ names, IsName n) (hcontent : Denotes tokens nodes) :
  Denotes (RowRenderer.wideRow attributes tokens) (wideNodes attributes nodes)
  := by
  apply Denotes.elementLine (by decide) (by decide)
  apply Denotes.element (by decide) (isLegible_of_names names (by decide) hnames h) hcontent

theorem denotes_levelTokens (level : Level) :
  Denotes (levelTokens level) (levelNodes level)
  := by
  have hname := Denotes.text level.name
  unfold levelTokens levelNodes
  split
  · apply Denotes.element (by decide) (by decide) hname
  · split
    · apply Denotes.element (by decide) (by decide)
      apply Denotes.element (by decide) (by decide) hname
    · apply hname

theorem denotes_traceLine (line : String) :
  Denotes (traceLine line) (traceLineNodes line)
  := (Denotes.text line).append Denotes.lineBreak

theorem denotes_traceIndent :
  Denotes traceIndent traceIndentNodes
  := by
  have hspace := Denotes.hardSpace
  have hbreak : Denotes [.opening "br" []] [elementNode "br" [] []] :=
    Denotes.void (by decide) (by decide)
  apply hbreak.append (((hspace.append hspace).append hspace).append hspace)

theorem denotes_traceTokens (trace : TraceLines) :
  Denotes (traceTokens trace) (traceNodes trace.lines)
  := by
  unfold traceTokens
  cases trace.lines with
  | nil => apply Denotes.nil
  | cons first rest =>
      apply (denotes_traceLine first).append
      apply Denotes.flatMap
      intro line
      apply denotes_traceIndent.append (denotes_traceLine line)

theorem loggerLabel_eq (logger : String) :
  loggerLabel logger = if logger = "" then "root" else logger
  := by
  simp [loggerLabel, rootLoggerName, String.isEmpty_iff]

theorem locationText_eq (source : Option SourceLocation) :
  locationText source = placeText (source.map fun source => (source.file, source.line))
  := by
  cases source with
  | none => rfl
  | some source => rfl

namespace RowRenderer

variable (r : RowRenderer)

theorem denotes_mainRow (event : Event) (message : String) :
  Denotes (r.mainRow event message)
    [.char '\n', (r.viewOf event message).mainRow, .char '\n']
  := by
  have hlocation : Denotes
      (if r.showsLocation then cell [] [.text (locationText event.source)] else [])
      (optionalNodes placeNodes (r.viewOf event message).location) := by
    rw [viewOf, locationText_eq]
    split
    · apply denotes_cell [] [] rfl (by decide) (Denotes.text _)
    · apply Denotes.nil
  have helapsed := denotes_cell [] [] rfl (by decide)
    (Denotes.text (integerText (r.session.elapsed event.time).toInt))
  have hthread := denotes_cell [.of "title" (event.thread ++ " thread")] ["title"] rfl
    (by decide) (Denotes.text event.thread)
  have hlevel := denotes_cell [.of "title" "Level"] ["title"] rfl (by decide)
    (denotes_levelTokens event.level)
  have hlogger := denotes_cell [.of "title" (loggerLabel event.logger ++ " category")]
    ["title"] rfl (by decide) (Denotes.text (loggerLabel event.logger))
  have hmessage := denotes_cell [.of "title" "Message"] ["title"] rfl (by decide)
    (Denotes.text message)
  have hcells := ((((helapsed.append hthread).append hlevel).append hlogger).append
    hlocation).append hmessage
  have hrow : Denotes _ [elementNode "tr" [] _] :=
    Denotes.element (by decide) (by decide) (Denotes.lineBreak.append hcells)
  have h := (Denotes.lineBreak.append hrow).append Denotes.lineBreak
  convert h using 1
  · simp [mainRow, element]
  · rw [Session.toInt_elapsed, loggerLabel_eq]
    rfl

theorem denotes_stackRow (stack : ContextStack) :
  Denotes (r.stackRow stack)
    (optionalNodes (EventView.stackNodes r.columns)
      (if stack.isEmpty then none else some stack.display))
  := by
  unfold stackRow
  split
  · apply Denotes.nil
  · apply denotes_wideRow ["bgcolor", "style", "colspan", "title"] rfl (by decide)
    apply Denotes.text

theorem denotes_mapRow (map : ContextMap) :
  Denotes (r.mapRow map)
    (optionalNodes (EventView.mapNodes r.columns)
      (if map.isEmpty then none else some map.display))
  := by
  unfold mapRow
  split
  · apply Denotes.nil
  · apply denotes_wideRow ["bgcolor", "style", "colspan", "title"] rfl (by decide)
    apply Denotes.text

theorem denotes_thrownRow? (thrown : Option ThrownError) :
  Denotes (r.thrownRow? thrown).value
    (optionalNodes (EventView.thrownNodes r.columns)
      (thrown.map fun e => (TraceLines.captureOrEmpty e).value.lines))
  := by
  cases thrown with
  | none => apply Denotes.nil
  | some e =>
      apply denotes_wideRow ["bgcolor", "style", "colspan"] rfl (by decide)
      apply denotes_traceTokens

/-- The tokens `r.rows event message` denote the nodes of the view of the event. -/
theorem denotes_rows (event : Event) (message : String) :
  Denotes (r.rows event message) ((r.viewOf event message).nodes r.columns)
  := by
  have hmap := (r.denotes_mapRow event.map).append (r.denotes_thrownRow? event.thrown)
  have hstack := (r.denotes_stackRow event.stack).append hmap
  rw [rows, List.append_assoc, List.append_assoc]
  apply (r.denotes_mainRow event message).append hstack

/-! ### Lists of events -/

/-- The text of the rows of a list of events, each by `renderText`. -/
def rowsText : List Event → Except Abort String
  | [] => .ok ""
  | event :: events => do
    let text ← (r.renderText event).value
    return text ++ (← rowsText events)

/-- The views of a list of events, each by `view`. -/
def views : List Event → Except Abort (List EventView)
  | [] => .ok []
  | event :: events => do
    let view ← r.view event
    return view :: (← views events)

/-- The text `rowsText` of events with views is that of tokens which denote the nodes of the
views. -/
theorem exists_denotes_of_views
    {events : List Event} {vs : List EventView} (h : r.views events = .ok vs) :
  ∃ tokens, r.rowsText events = .ok (Html.render tokens)
    ∧ Denotes tokens (vs.flatMap (EventView.nodes r.columns))
  := by
  induction events generalizing vs with
  | nil =>
      obtain rfl := Except.ok.inj h
      use []
      constructor
      · rfl
      · apply Denotes.nil
  | cons event events ih =>
      rw [views, view] at h
      rw [rowsText, value_renderText]
      cases hmessage : event.message.text with
      | error abort => simp [hmessage, bind, Except.bind, Except.map] at h
      | ok message =>
          cases hviews : r.views events with
          | error abort => simp [hmessage, hviews, bind, Except.bind, Except.map] at h
          | ok ws =>
              obtain ⟨tokens, hrows, hdenotes⟩ := ih hviews
              rw [hmessage, hviews] at h
              obtain rfl := Except.ok.inj h
              use r.rows event message ++ tokens
              constructor
              · rw [hrows, render_append]
                rfl
              · apply (r.denotes_rows event message).append hdenotes

end RowRenderer

end Html

end LogRendering
