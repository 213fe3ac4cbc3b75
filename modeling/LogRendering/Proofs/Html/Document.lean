import LogRendering.Html.Document
import LogRendering.Proofs.Html.Table
import Mathlib.Tactic.Choose

/-!
# Documents are well formed

The text of a header, rows and a footer has properly nested tags.  It is one document with
one table, whose first row holds the titles of the columns, and whose other rows are those
of the events, in their order.
-/

namespace LogRendering

/-- The number of rows of `event` after its main row. -/
def Event.partCount (event : Event) : Nat :=
  (if event.stack.isEmpty then 0 else 1) + (if event.map.isEmpty then 0 else 1)
    + (if event.thrown.isSome then 1 else 0)

namespace Html

/-- The number of rows of a list of events. -/
def rowCount : List Event → Nat
  | [] => 0
  | event :: events => 1 + event.partCount + rowCount events

/-- The element `table` has a row of titles, and then the rows of the events, each with its
text. -/
structure IsEventTable
    (columns : Nat) (events : List Event) (texts : List String) (table : Node) : Prop where
  /-- The rows after the first are those of the texts, in their order. -/
  rows : ∃ titles, rowsAmong table.content = titles :: texts.flatMap rowsOfText
  /-- An event has a main row and a row for each of its parts. -/
  length : (rowsAmong table.content).length = 1 + rowCount events
  /-- A row has a cell for each column, or a single cell across all of them. -/
  cells : (rowsAmong table.content).map Node.cells
    = List.replicate columns ("th", none) :: events.flatMap (fun event =>
        List.replicate columns ("td", none)
          :: List.replicate event.partCount [("td", some (naturalText columns))])
  endLines : RowsEndLines table.content

namespace DocumentFrame

variable (f : DocumentFrame)

/-! ### The tree of a document -/

/-- The attributes of the element `meta` with the charset. -/
def charsetAttributes : List Attribute :=
  [.of "http-equiv" "Content-Type", .of "content" ("text/html; charset=" ++ f.charset.name)]

/-- The node of `f.head`. -/
def headNode : Node :=
  elementNode "head" []
    [.char '\n', elementNode "meta" f.charsetAttributes [], .char '\n',
      elementNode "title" [] (textNodes f.title), .char '\n',
      elementNode "style" [.of "type" "text/css"] [.char '\n', .char '\n'], .char '\n']

/-- The nodes of `f.introduction t`. -/
def introductionNodes (t : Calendar.Instant) : List Node :=
  [elementNode "hr" [.of "size" "1", ⟨"noshade", none⟩] [], .char '\n']
    ++ textNodes ("Log session start time " ++ f.timestampFormat.format t)
    ++ [elementNode "br" [] [], .char '\n', elementNode "br" [] [], .char '\n']

/-- The nodes of the title of a column, in an element `th`. -/
def titleNodes (title : String) : List Node :=
  [elementNode "th" [] (textNodes title), .char '\n']

/-- The node of `f.titleRow`. -/
def titleRowNode : Node :=
  elementNode "tr" [] (.char '\n' :: (columnTitles f.showsLocation).flatMap titleNodes)

/-- The attributes of the table. -/
def tableAttributes : List Attribute :=
  [.of "cellspacing" "0", .of "cellpadding" "4", .of "border" "1",
    .of "bordercolor" "#224466", .of "width" "100%"]

/-- The table with the given `rows` after the titles. -/
def tableNode (rows : List Node) : Node :=
  elementNode "table" tableAttributes (.char '\n' :: f.titleRowNode :: .char '\n' :: rows)

/-- The attributes of the body of a document. -/
def bodyAttributes : List Attribute :=
  [.of "bgcolor" "#FFFFFF", .of "topmargin" "6", .of "leftmargin" "6"]

/-- The body of a document with the given `rows` in its table. -/
def bodyNode (t : Calendar.Instant) (rows : List Node) : Node :=
  elementNode "body" bodyAttributes
    (.char '\n' ::
      (f.introductionNodes t
        ++ [f.tableNode rows, .char '\n', elementNode "br" [] [], .char '\n']))

/-- The nodes of a document with the given `rows` in its table. -/
def nodes (t : Calendar.Instant) (rows : List Node) : List Node :=
  [.char '\n', elementNode "html" [] [.char '\n', f.headNode, .char '\n', f.bodyNode t rows]]

/-! ### A document denotes its tree -/

theorem denotes_head :
  Denotes f.head [f.headNode, .char '\n']
  := by
  have hcharset : Denotes [.opening "meta" f.charsetAttributes]
      [elementNode "meta" f.charsetAttributes []] := by
    apply Denotes.void (by decide)
    apply isLegible_of_names ["http-equiv", "content"] (by decide) rfl (by decide)
  have htitle : Denotes _ [elementNode "title" [] _, .char '\n'] :=
    Denotes.elementLine (by decide) (by decide) (Denotes.text f.title)
  have hsheet : Denotes [.comment styleSheet] [] := Denotes.comment (by decide +kernel)
  have hstyle : Denotes _ [elementNode "style" [.of "type" "text/css"] _, .char '\n'] :=
    Denotes.elementLine (by decide) (by decide)
      ((Denotes.lineBreak.append hsheet).append Denotes.lineBreak)
  have hcontent := (((Denotes.lineBreak.append hcharset).append Denotes.lineBreak).append
    htitle).append hstyle
  have hhead : Denotes _ [elementNode "head" [] _, .char '\n'] :=
    Denotes.elementLine (by decide) (by decide) hcontent
  simpa [head, headNode, charsetAttributes, elementLine, element, textNodes] using hhead

theorem denotes_introduction (t : Calendar.Instant) :
  Denotes (f.introduction t) (f.introductionNodes t)
  := by
  have hrule : Denotes [.opening "hr" [.of "size" "1", ⟨"noshade", none⟩]]
      [elementNode "hr" [.of "size" "1", ⟨"noshade", none⟩] []] :=
    Denotes.void (by decide) (by decide)
  have hbreak : Denotes [.opening "br" []] [elementNode "br" [] []] :=
    Denotes.void (by decide) (by decide)
  have htime := Denotes.text ("Log session start time " ++ f.timestampFormat.format t)
  have h := ((hrule.append Denotes.lineBreak).append htime).append
    (((hbreak.append Denotes.lineBreak).append hbreak).append Denotes.lineBreak)
  simpa [introduction, introductionNodes, textNodes] using h

theorem denotes_titleRow :
  Denotes f.titleRow [f.titleRowNode, .char '\n']
  := by
  have htitle : ∀ title, Denotes (elementLine "th" [] [.text title]) (titleNodes title) := by
    intro title
    apply Denotes.elementLine (by decide) (by decide) (Denotes.text title)
  have hrow : Denotes _ [elementNode "tr" [] _, .char '\n'] :=
    Denotes.elementLine (by decide) (by decide)
      (Denotes.lineBreak.append (Denotes.flatMap htitle (columnTitles f.showsLocation)))
  simpa [titleRow, titleRowNode, elementLine, element] using hrow

/-- A header, `tokens` and a footer denote a document with the nodes of these tokens as its
rows. -/
theorem denotes_document
    (t : Calendar.Instant) {tokens : List Token} {rows : List Node} (h : Denotes tokens rows) :
  Denotes (f.header t ++ tokens ++ footer) (f.nodes t rows)
  := by
  have hbreak : Denotes [.opening "br" []] [elementNode "br" [] []] :=
    Denotes.void (by decide) (by decide)
  have htable : Denotes _ [elementNode "table" tableAttributes _, .char '\n'] :=
    Denotes.elementLine (by decide) (by decide)
      ((Denotes.lineBreak.append f.denotes_titleRow).append h)
  have hbody : Denotes _ [elementNode "body" bodyAttributes _] :=
    Denotes.element (by decide) (by decide)
      ((((Denotes.lineBreak.append (f.denotes_introduction t)).append htable).append
        hbreak).append Denotes.lineBreak)
  have hhtml : Denotes _ [elementNode "html" [] _] :=
    Denotes.element (by decide) (by decide)
      ((Denotes.lineBreak.append f.denotes_head).append hbody)
  have htype : Denotes [documentType] [] := Denotes.declaration (by decide)
  have hdocument := (htype.append Denotes.lineBreak).append hhtml
  simpa [header, footer, nodes, bodyNode, tableNode, bodyAttributes, tableAttributes,
    elementLine, element] using hdocument

/-! ### The elements of a document -/

variable {name : String}

theorem namedIn_titleRowNode_cons (h : name ∉ ["tr", "th"]) (rest : List Node) :
  Node.namedIn name (f.titleRowNode :: rest) = Node.namedIn name rest
  := by
  simp only [List.mem_cons, List.not_mem_nil, or_false, not_or] at h
  obtain ⟨htr, hth⟩ := h
  simp [titleRowNode, titleNodes, textNodes, Node.namedIn_flatMap, Ne.symm htr, Ne.symm hth]

/-- A document whose `rows` hold only elements of `rowNames` has one element of each name that
belongs to it as a whole, and a single table. -/
theorem namedIn_nodes
    (t : Calendar.Instant) {rows : List Node}
    (h : ∀ name, name ∉ EventView.rowNames → Node.namedIn name rows = []) :
  (∀ name ∈ ["html", "head", "body", "table"],
      (Node.namedIn name (f.nodes t rows)).length = 1)
    ∧ Node.namedIn "table" (f.nodes t rows) = [f.tableNode rows]
  := by
  have hhtml := h "html" (by decide)
  have hhead := h "head" (by decide)
  have hbody := h "body" (by decide)
  have htable := h "table" (by decide)
  constructor
  · intro name hname
    simp only [List.mem_cons, List.not_mem_nil, or_false] at hname
    obtain rfl | rfl | rfl | rfl := hname
    all_goals
      simp [nodes, headNode, bodyNode, introductionNodes, tableNode, textNodes,
        namedIn_titleRowNode_cons, hhtml, hhead, hbody, htable]
  · simp [nodes, headNode, bodyNode, introductionNodes, tableNode, textNodes,
      namedIn_titleRowNode_cons, htable]

/-- The row of titles has a cell `th` for each column. -/
theorem cells_titleRowNode :
  f.titleRowNode.cells = List.replicate (columnCount f.showsLocation) ("th", none)
  := by
  unfold titleRowNode columnTitles
  cases f.showsLocation with
  | false => rfl
  | true => rfl

theorem rowsAmong_tableNode (rows : List Node) :
  rowsAmong (f.tableNode rows).content = f.titleRowNode :: rowsAmong rows
  := rfl

end DocumentFrame

/-! ### The rows of events -/

/-- The text of tokens put together is that of all of them. -/
theorem render_flatMap {α : Type} (tokens : α → List Token) (as : List α) :
  render (as.flatMap tokens) = String.join (as.map fun a => render (tokens a))
  := by
  induction as with
  | nil => rfl
  | cons a as ih => rw [List.flatMap_cons, render_append, ih, List.map_cons, String.join_cons]

/-- A main row and a row for each part of every event are `rowCount` rows. -/
theorem length_eq_rowCount {α : Type} (main part : α) (events : List Event) :
  (events.flatMap fun event => main :: List.replicate event.partCount part).length
    = rowCount events
  := by
  induction events with
  | nil => rfl
  | cons event events ih =>
      rw [List.flatMap_cons, List.length_append, ih, List.length_cons, List.length_replicate,
        Nat.add_comm event.partCount]
      rfl

namespace RowRenderer

variable (r : RowRenderer)

/-- The rows of the text of `r.rows` are those of the view of the event. -/
theorem rowsOfText_render_rows (event : Event) (message : String) :
  rowsOfText (Html.render (r.rows event message))
    = rowsAmong ((r.viewOf event message).nodes r.columns)
  := by
  rw [rowsOfText, (r.denotes_rows event message).nodes?_render, Option.getD_some]

theorem partCount_viewOf (event : Event) (message : String) :
  (r.viewOf event message).partCount = event.partCount
  := by
  have hstack : (r.viewOf event message).stack.isSome = !event.stack.isEmpty := by
    rw [viewOf]
    cases event.stack.isEmpty <;> rfl
  have hmap : (r.viewOf event message).map.isSome = !event.map.isEmpty := by
    rw [viewOf]
    cases event.map.isEmpty <;> rfl
  have htrace : (r.viewOf event message).trace.isSome = event.thrown.isSome := by
    rw [viewOf, Option.isSome_map]
  rw [EventView.partCount, Event.partCount, hstack, hmap, htrace]
  cases event.stack.isEmpty <;> cases event.map.isEmpty <;> rfl

/-- The rows of an event are a main row with a cell for each column, and rows with a single cell
that has the attribute `colspan`. -/
theorem map_cells_viewOf (event : Event) (message : String) :
  (rowsAmong ((r.viewOf event message).nodes r.columns)).map Node.cells
    = List.replicate r.columns ("td", none)
      :: List.replicate event.partCount [("td", some (naturalText r.columns))]
  := by
  have hlocation : (r.viewOf event message).location.isSome = r.showsLocation := by
    rw [viewOf]
    cases r.showsLocation <;> rfl
  rw [EventView.map_cells_nodes, partCount_viewOf, hlocation]
  rfl

/-- The text of `r.rows event message`. -/
def rowText (event : Event) (message : String) : String :=
  Html.render (r.rows event message)

/-- The nodes of the rows of `events`, whose messages have the given texts. -/
def rowNodes (events : List Event) (message : Event → String) : List Node :=
  events.flatMap fun event => (r.viewOf event (message event)).nodes r.columns

/-- The rows of `events` in a document with the same columns form its table. -/
theorem isEventTable
    {f : DocumentFrame} (hlocation : r.showsLocation = f.showsLocation) (events : List Event)
    (message : Event → String) :
  IsEventTable (columnCount f.showsLocation) events
    (events.map fun event => r.rowText event (message event))
    (f.tableNode (r.rowNodes events message))
  := by
  have hcells : (rowsAmong (f.tableNode (r.rowNodes events message)).content).map Node.cells
      = List.replicate (columnCount f.showsLocation) ("th", none)
        :: events.flatMap (fun event => List.replicate r.columns ("td", none)
          :: List.replicate event.partCount [("td", some (naturalText r.columns))]) := by
    rw [DocumentFrame.rowsAmong_tableNode, List.map_cons, DocumentFrame.cells_titleRowNode,
      rowNodes, rowsAmong_flatMap, List.map_flatMap]
    simp only [map_cells_viewOf]
  constructor
  · use f.titleRowNode
    rw [DocumentFrame.rowsAmong_tableNode, rowNodes, rowsAmong_flatMap, List.flatMap_map]
    simp only [rowText, rowsOfText_render_rows]
  · have hlength := congrArg List.length hcells
    rw [List.length_map, List.length_cons, length_eq_rowCount, Nat.add_comm] at hlength
    apply hlength
  · rw [hcells, columns, hlocation]
  · have htitles : RowsEndLines [f.titleRowNode, .char '\n'] := RowsEndLines.line "tr" [] _
    apply (RowsEndLines.char '\n').append
    apply htitles.append
    apply RowsEndLines.flatMap
    intro event
    apply RowsEndLines.nodes

theorem renderText_of_text
    {event : Event} {message : String} (h : event.message.text = .ok message) :
  (r.renderText event).value = .ok (r.rowText event message)
  := by
  rw [value_renderText, h]
  rfl

end RowRenderer

/-- A header, the rows of events and a footer, with the same columns, are a well-formed document,
which `nodes?` reads: it has one element of each name that belongs to it as a whole, and its only
table `IsEventTable` of the events. -/
theorem exists_eventTable_of_document
    (f : DocumentFrame) (t : Calendar.Instant) (r : RowRenderer) {events : List Event}
    (hlocation : r.showsLocation = f.showsLocation)
    (hmessages : ∀ event ∈ events, ∃ message, event.message.text = .ok message) :
  ∃ texts nodes table,
    events.map (fun event => (r.renderText event).value) = texts.map .ok
      ∧ nodes? (f.headerText t ++ String.join texts ++ DocumentFrame.footerText) = some nodes
      ∧ (∀ name ∈ ["html", "head", "body", "table"], (Node.namedIn name nodes).length = 1)
      ∧ Node.namedIn "table" nodes = [table]
      ∧ IsEventTable (columnCount f.showsLocation) events texts table
  := by
  choose! message hmessage using hmessages
  have hrows : Denotes (events.flatMap fun event => r.rows event (message event))
      (r.rowNodes events message) :=
    Denotes.flatMap (fun event => r.denotes_rows event (message event)) events
  have hnames : ∀ name, name ∉ EventView.rowNames →
      Node.namedIn name (r.rowNodes events message) = [] := by
    intro name hname
    rw [RowRenderer.rowNodes, Node.namedIn_flatMap]
    apply List.flatMap_eq_nil_iff.mpr
    intro event _
    apply EventView.namedIn_nodes hname
  obtain ⟨hlengths, htable⟩ := f.namedIn_nodes t hnames
  have hread := (f.denotes_document t hrows).nodes?_render
  rw [render_append, render_append, render_flatMap] at hread
  use events.map fun event => r.rowText event (message event)
  use f.nodes t (r.rowNodes events message)
  use f.tableNode (r.rowNodes events message)
  refine ⟨?_, hread, hlengths, htable, r.isEventTable hlocation events message⟩
  rw [List.map_map]
  apply List.map_congr_left
  intro event hevent
  apply r.renderText_of_text (hmessage event hevent)

/-- An event with all parts, of which the texts look like the end of a table. -/
def closingEvent : Event where
  logger := ""
  level := .error
  message := .ofText "</table></body></html>"
  thread := "</td></tr>"
  time := 3
  stack := ⟨["</tr>"]⟩
  map := ContextMap.empty.insert "</table>" "<table>"
  thrown := some ⟨"Failure", .ofText "</td>", .leaf "Failure", [], none⟩
  source := none

/-- A document in which the title, the time and the event `closingEvent` look like markup. -/
theorem exists_eventTable_closingEvent :
  ∃ texts nodes table,
    [closingEvent, closingEvent].map
        (fun event => (RowRenderer.renderText ⟨true, ⟨0⟩, .utf8⟩ event).value)
      = texts.map .ok
      ∧ nodes? (DocumentFrame.headerText ⟨"</title>", true, .utf8, .custom "<html>"⟩ ⟨0, 0⟩
          ++ String.join texts ++ DocumentFrame.footerText) = some nodes
      ∧ (∀ name ∈ ["html", "head", "body", "table"], (Node.namedIn name nodes).length = 1)
      ∧ Node.namedIn "table" nodes = [table]
      ∧ IsEventTable (columnCount true) [closingEvent, closingEvent] texts table
  := by
  apply exists_eventTable_of_document ⟨"</title>", true, .utf8, .custom "<html>"⟩ ⟨0, 0⟩
    ⟨true, ⟨0⟩, .utf8⟩ rfl
  intro event hevent
  simp only [List.mem_cons, List.not_mem_nil, or_false, or_self] at hevent
  use "</table></body></html>"
  rw [hevent]
  rfl

end Html

end LogRendering
