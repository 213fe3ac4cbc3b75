import LogRendering.Charset
import LogRendering.Event
import LogRendering.Html.Trace
import LogRendering.Session

/-!
# Rows

An event as rows of an HTML table: the main row, one for the context stack and one for the
context map unless they are empty, and one for the thrown error if there is one.
-/

namespace LogRendering.Html

/-- The number of columns of the table, which has one more if it `showsLocation`. -/
def columnCount (showsLocation : Bool) : Nat :=
  if showsLocation then 6 else 5

/-- How events are rendered as rows by `RowRenderer.render`. -/
structure RowRenderer where
  /-- The table has a column for the source. -/
  showsLocation : Bool
  session : Session
  charset : Charset

/-- The name shown for the logger without a name. -/
def rootLoggerName : String :=
  "root"

/-- The name shown for a logger, which is `rootLoggerName` for the logger without a name. -/
def loggerLabel (logger : String) : String :=
  if logger.isEmpty then rootLoggerName else logger

/-- The name of a level, in colour if it is `debug` or severe, and emphasised if it is severe. -/
def levelTokens (level : Level) : List Token :=
  let name : List Token := [.text level.name]
  if level = .debug then element "font" [.of "color" "#339933"] name
  else if level.isAtLeast .warn then
    element "font" [.of "color" "#993300"] (element "strong" [] name)
  else name

/-- The place of the log call, or `?:?` if it is not known. -/
def locationText (source : Option SourceLocation) : String :=
  match source with
  | some source => source.display
  | none => "?:?"

/-- A cell `td` of the main row. -/
def cell (attributes : List Attribute) (content : List Token) : List Token :=
  elementLine "td" attributes content

namespace RowRenderer

/-- The number of columns of the table of `r`. -/
def columns (r : RowRenderer) : Nat :=
  columnCount r.showsLocation

/-- The attribute `colspan` by which a cell covers all `columns`. -/
def allColumns (r : RowRenderer) : Attribute :=
  .of "colspan" (naturalText r.columns)

/-- The main row of an event whose message has the text `message`. -/
def mainRow (r : RowRenderer) (event : Event) (message : String) : List Token :=
  let logger := loggerLabel event.logger
  [lineBreak, .opening "tr" [], lineBreak]
    ++ cell [] [.text (integerText (r.session.elapsed event.time).toInt)]
    ++ cell [.of "title" (event.thread ++ " thread")] [.text event.thread]
    ++ cell [.of "title" "Level"] (levelTokens event.level)
    ++ cell [.of "title" (logger ++ " category")] [.text logger]
    ++ (if r.showsLocation then cell [] [.text (locationText event.source)] else [])
    ++ cell [.of "title" "Message"] [.text message]
    ++ [.closing "tr", lineBreak]

/-- A row with a single cell `td`. -/
def wideRow (attributes : List Attribute) (content : List Token) : List Token :=
  elementLine "tr" [] (element "td" attributes content)

/-- A `wideRow` for a part of the context: its `label` and its text. -/
def contextRow (r : RowRenderer) (title label text : String) : List Token :=
  wideRow
    [.of "bgcolor" "#EEEEEE", .of "style" "font-size : xx-small;", r.allColumns,
      .of "title" title]
    [.text (label ++ text)]

/-- The row for the context stack, if it is not empty. -/
def stackRow (r : RowRenderer) (stack : ContextStack) : List Token :=
  if stack.isEmpty then []
  else r.contextRow "Nested Diagnostic Context" "NDC: " stack.display

/-- The row for the context map, if it is not empty. -/
def mapRow (r : RowRenderer) (map : ContextMap) : List Token :=
  if map.isEmpty then []
  else r.contextRow "Mapped Diagnostic Context" "MDC: " map.display

/-- The row for a thrown error, with `thrownTokens e` in its cell. -/
def thrownRow (r : RowRenderer) (e : ThrownError) : Reported (List Token) := do
  return wideRow
    [.of "bgcolor" "#993300", .of "style" "color:White; font-size : xx-small;",
      r.allColumns]
    (← thrownTokens e)

/-- The row `thrownRow` for a thrown error, if there is one. -/
def thrownRow? (r : RowRenderer) (thrown : Option ThrownError) : Reported (List Token) :=
  match thrown with
  | some e => r.thrownRow e
  | none => return []

/-- The rows of an event: `mainRow` and, as far as the event has them, `stackRow`, `mapRow` and
`thrownRow`.  There are none if the text of its message ends in an `Abort`. -/
def tokens (r : RowRenderer) (event : Event) : Reported (Except Abort (List Token)) := do
  match event.message.text with
  | .error abort => return .error abort
  | .ok message => do
    let thrown ← r.thrownRow? event.thrown
    return .ok
      (r.mainRow event message ++ r.stackRow event.stack ++ r.mapRow event.map ++ thrown)

/-- The text of the `tokens` of an event. -/
def renderText (r : RowRenderer) (event : Event) : Reported (Except Abort String) := do
  return (← r.tokens event).map Html.render

/-- The bytes of `renderText` in `r.charset`. -/
def render (r : RowRenderer) (event : Event) : Reported (Except Abort (List UInt8)) := do
  return (← r.renderText event).map r.charset.encode

end RowRenderer

end LogRendering.Html
