import LogRendering.Html.Row
import LogRendering.Timestamp.Format

/-!
# Documents

What comes before and after the rows of the events, so that together they are one HTML
document with one table.
-/

namespace LogRendering.Html

open Calendar (Instant)

/-- How the frame of a document is rendered: what comes before the rows in `header` and after
them in `footer`. -/
structure DocumentFrame where
  title : String
  /-- The table has a column for the source. -/
  showsLocation : Bool
  charset : Charset
  timestampFormat : TimestampFormat

namespace DocumentFrame

/-- The style sheet of a document. -/
def styleSheet : String :=
  "\nbody, table \x7bfont-family: arial,sans-serif; font-size: x-small;\x7d\n"
    ++ "th \x7bbackground: #336699; color: #FFFFFF; text-align: left;\x7d\n"

/-- The declaration of the document type. -/
def documentType : Token :=
  .declaration
    ("DOCTYPE HTML PUBLIC \"-//W3C//DTD HTML 4.01 Transitional//EN\" "
      ++ "\"http://www.w3.org/TR/html4/loose.dtd\"")

/-- The element `head` of a document: its charset, `f.title` and the `styleSheet`. -/
def head (f : DocumentFrame) : List Token :=
  [.opening "head" [], lineBreak]
    ++ [.opening "meta"
        [.of "http-equiv" "Content-Type",
          .of "content" ("text/html; charset=" ++ f.charset.name)], lineBreak]
    ++ elementLine "title" [] [.text f.title]
    ++ elementLine "style" [.of "type" "text/css"]
        [lineBreak, .comment styleSheet, lineBreak]
    ++ [.closing "head", lineBreak]

/-- The introduction of a document: the time `t` at which its session started, in
`f.timestampFormat`. -/
def introduction (f : DocumentFrame) (t : Instant) : List Token :=
  [.opening "hr" [.of "size" "1", ⟨"noshade", none⟩], lineBreak,
    .text ("Log session start time " ++ f.timestampFormat.format t),
    .opening "br" [], lineBreak, .opening "br" [], lineBreak]

/-- The titles of the columns; there are as many as `columnCount` says. -/
def columnTitles (showsLocation : Bool) : List String :=
  ["Time", "Thread", "Level", "Logger"] ++ (if showsLocation then ["File:Line"] else [])
    ++ ["Message"]

/-- The row with the `columnTitles`. -/
def titleRow (f : DocumentFrame) : List Token :=
  [.opening "tr" [], lineBreak]
    ++ (columnTitles f.showsLocation).flatMap (fun title => elementLine "th" [] [.text title])
    ++ [.closing "tr", lineBreak]

/-- What comes before the rows of the events, up to `titleRow`.  The elements `html`, `body` and
`table` stay open. -/
def header (f : DocumentFrame) (t : Instant) : List Token :=
  [documentType, lineBreak, .opening "html" [], lineBreak]
    ++ f.head
    ++ [.opening "body"
        [.of "bgcolor" "#FFFFFF", .of "topmargin" "6", .of "leftmargin" "6"], lineBreak]
    ++ f.introduction t
    ++ [.opening "table"
        [.of "cellspacing" "0", .of "cellpadding" "4", .of "border" "1",
          .of "bordercolor" "#224466", .of "width" "100%"], lineBreak]
    ++ f.titleRow

/-- What comes after the rows of the events: the elements that `header` leaves open are
closed. -/
def footer : List Token :=
  [.closing "table", lineBreak, .opening "br" [], lineBreak, .closing "body",
    .closing "html"]

/-- The text of `header`. -/
def headerText (f : DocumentFrame) (t : Instant) : String :=
  Html.render (f.header t)

/-- The text of `footer`. -/
def footerText : String :=
  Html.render footer

/-- The bytes of `headerText` in `f.charset`. -/
def headerBytes (f : DocumentFrame) (t : Instant) : List UInt8 :=
  f.charset.encode (f.headerText t)

/-- The bytes of `footerText` in `f.charset`. -/
def footerBytes (f : DocumentFrame) : List UInt8 :=
  f.charset.encode footerText

end DocumentFrame

end LogRendering.Html
