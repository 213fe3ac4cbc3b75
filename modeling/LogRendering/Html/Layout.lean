import LogRendering.Html.Document
import LogRendering.Layout

/-!
# HTML layouts

The layout that writes events as rows of an HTML table, and its settings.  The charset is
chosen by name and the format of the time is resolved when the layout is built, so that
neither can fail later.
-/

namespace LogRendering.Html

/-- The title of a document that does not say. -/
def defaultTitle : String :=
  "Log4J Log Messages"

/-- The content type of a document that does not say. -/
def defaultContentType : String :=
  "text/html"

/-- The settings of an HTML layout that are read from JSON by `ofJsonText`. -/
structure LayoutConfig where
  showsLocation : Bool
  title : String
  contentType : String
  charset : Option String
deriving DecidableEq

namespace LayoutConfig

instance : Inhabited LayoutConfig := ⟨⟨false, defaultTitle, defaultContentType, none⟩⟩

open Json.Reader in
/-- The fields of a `LayoutConfig` in JSON. -/
def fields : List (FieldReader LayoutConfig) :=
  [⟨"locationInfo", do
      let b ← truthValue
      return fun config => { config with showsLocation := b }⟩,
    ⟨"title", do
      let s ← textValue
      return fun config => { config with title := s }⟩,
    ⟨"contentType", do
      let s ← textValue
      return fun config => { config with contentType := s }⟩,
    ⟨"charset", do
      let name ← optionalText
      return fun config => { config with charset := name }⟩]

/-- The settings that a JSON text denotes, where a field that is not given has its default. -/
def ofJsonText (s : String) : Except Json.Fault LayoutConfig :=
  (Json.Reader.recordOf fields default).run s

/-- The JSON value of the settings, which names all `fields`. -/
def toJson (config : LayoutConfig) : Json.Value :=
  .object
    [("locationInfo", .bool config.showsLocation), ("title", .text config.title),
      ("contentType", .text config.contentType),
      ("charset", match config.charset with
        | some name => .text name
        | none => .null)]

end LayoutConfig

/-- All settings of an HTML layout: a `LayoutConfig`, the session, and how timestamps are
shown. -/
structure LayoutSettings extends LayoutConfig where
  session : Session
  timestampFormat : TimestampFormat

/-- The settings `config`, for a session and with the default `TimestampFormat`. -/
def LayoutSettings.ofConfig (config : LayoutConfig) (session : Session) : LayoutSettings :=
  { config with session, timestampFormat := default }

/-- A layout that writes events as rows of an HTML table. -/
structure HtmlLayout where
  /-- The content type without the charset. -/
  mediaType : String
  charset : Charset
  renderer : RowRenderer
  frame : DocumentFrame

namespace HtmlLayout

/-- The layout with the given settings.  A charset that is not supported and a format that is not
valid are replaced by `Charset.resolve` and `TimestampFormat.resolve`, with a warning. -/
def build (settings : LayoutSettings) : Reported HtmlLayout := do
  let charset ← Charset.resolve settings.charset
  let timestampFormat ← settings.timestampFormat.resolve
  return {
    mediaType := settings.contentType
    charset
    renderer := ⟨settings.showsLocation, settings.session, charset⟩
    frame := ⟨settings.title, settings.showsLocation, charset, timestampFormat⟩ }

/-- The content type: `layout.mediaType`, with the charset as its last parameter. -/
def contentType (layout : HtmlLayout) : String :=
  layout.mediaType ++ "; charset=" ++ layout.charset.name

/-- The layout as one `Layout` among others. -/
def toLayout (layout : HtmlLayout) : Layout where
  toBytes := layout.renderer.render
  header := fun t => some (layout.frame.headerBytes t)
  footer := some layout.frame.footerBytes
  contentType := layout.contentType
  charset := layout.charset

end HtmlLayout

end LogRendering.Html
