import LogRendering.Html.Layout
import LogRendering.Proofs.Html.Document
import LogRendering.Proofs.Html.Replacement

/-!
# One charset for a whole document

A layout announces its charset in the content type and in the header of its documents, and
writes the header, the rows of every event and the footer in it, each apart from the others.
So what it writes can be put together and read in the charset that is announced, whatever name
the layout was given for its charset.
-/

namespace LogRendering

/-! ### Announced names -/

namespace Charset

/-- What follows the last semicolon of a content type. -/
def finalParameter? : List Char → Option (List Char)
  | [] => none
  | c :: cs => (finalParameter? cs).or (if c = ';' then some cs else none)

/-- The name of the charset in the final parameter of `contentType`, if this is the charset. -/
def announced? (contentType : String) : Option String :=
  (finalParameter? contentType.toList).bind fun parameter =>
    match parameter.dropWhile (· = ' ') with
    | 'c' :: 'h' :: 'a' :: 'r' :: 's' :: 'e' :: 't' :: '=' :: name => some (String.ofList name)
    | _ => none

theorem finalParameter?_append
    {cs parameter : List Char} (h : finalParameter? cs = some parameter) (before : List Char) :
  finalParameter? (before ++ cs) = some parameter
  := by
  induction before with
  | nil => apply h
  | cons c before ih => rw [List.cons_append, finalParameter?, ih, Option.some_or]

/-- A content type whose final parameter is the charset announces it, whatever `mediaType`
holds. -/
theorem announced?_append (mediaType : String) (charset : Charset) :
  announced? (mediaType ++ "; charset=" ++ charset.name) = some charset.name
  := by
  have hparameter : finalParameter? ("; charset=" ++ charset.name).toList
      = some (" charset=" ++ charset.name).toList := by
    cases charset with
    | utf8 | utf16be | utf16le | ascii | latin1 => decide
  rw [announced?, String.append_assoc, String.toList_append, finalParameter?_append hparameter,
    Option.bind_some]
  cases charset with
  | utf8 | utf16be | utf16le | ascii | latin1 => decide

theorem resolve_name (charset : Charset) :
  resolve (some charset.name) = pure charset
  := by
  rw [resolve, ofName?_name]

theorem replaceAll_name (charset charset' : Charset) :
  charset.replaceAll charset'.name = charset'.name
  := by
  apply replaceAll_of_isAscii
  cases charset' with
  | utf8 | utf16be | utf16le | ascii | latin1 => decide

end Charset

namespace Html

open Charset

/-! ### Tags -/

/-- The attributes of a tag of the given `name` that opens an element. -/
def attributesOf? (name : String) : Lexeme → Option (List (String × Option String))
  | .opening n attributes => if n = name then some attributes else none
  | _ => none

/-- The attributes of every tag of the given `name` that opens an element. -/
def tagsNamed (name : String) (lexemes : List Lexeme) : List (List (String × Option String)) :=
  lexemes.filterMap (attributesOf? name)

@[simp]
theorem tagsNamed_cons (name : String) (l : Lexeme) (lexemes : List Lexeme) :
  tagsNamed name (l :: lexemes) = (attributesOf? name l).toList ++ tagsNamed name lexemes
  := by
  rw [tagsNamed, List.filterMap_cons]
  cases attributesOf? name l with
  | none => rfl
  | some attributes => rfl

@[simp]
theorem tagsNamed_append (name : String) (lexemes lexemes' : List Lexeme) :
  tagsNamed name (lexemes ++ lexemes') = tagsNamed name lexemes ++ tagsNamed name lexemes'
  := List.filterMap_append

@[simp]
theorem tagsNamed_charLexemes (name s : String) :
  tagsNamed name (charLexemes s) = []
  := by
  rw [tagsNamed, charLexemes, List.filterMap_map]
  apply List.filterMap_eq_nil_iff.mpr
  intro c _
  rfl

/-- Tags keep their names, and their attributes but for the values, under `Lexeme.replaced`. -/
theorem tagsNamed_replaced (charset : Charset) (name : String) (lexemes : List Lexeme) :
  tagsNamed name (lexemes.map (Lexeme.replaced charset))
    = (tagsNamed name lexemes).map
        (List.map fun a => (a.1, a.2.map charset.replaceAll))
  := by
  rw [tagsNamed, tagsNamed, List.filterMap_map, List.map_filterMap]
  congr 1
  funext l
  cases l with
  | opening n attributes =>
      rw [Function.comp_apply, Lexeme.replaced, attributesOf?, attributesOf?]
      split
      · rfl
      · rfl
  | _ => rfl

namespace DocumentFrame

variable (f : DocumentFrame)

theorem tagsNamed_columnTitles (showsLocation : Bool) :
  tagsNamed "meta"
      (((columnTitles showsLocation).flatMap
        fun title => elementLine "th" [] [.text title]).flatMap Token.lexemes)
    = []
  := by
  rw [List.flatMap_assoc]
  induction columnTitles showsLocation with
  | nil => rfl
  | cons title titles ih =>
      rw [List.flatMap_cons, tagsNamed_append, ih]
      simp [elementLine, element, lineBreak, Token.lexemes, attributesOf?]

/-- The header of a document has a single tag `meta`, which tells its charset. -/
theorem tagsNamed_header (t : Calendar.Instant) :
  tagsNamed "meta" ((f.header t).flatMap Token.lexemes)
    = [f.charsetAttributes.map Attribute.read]
  := by
  have htitles := tagsNamed_columnTitles f.showsLocation
  simpa [header, head, introduction, titleRow, documentType, elementLine, element, lineBreak,
    Token.lexemes, attributesOf?, charsetAttributes] using htitles

theorem read_charsetAttributes :
  f.charsetAttributes.map Attribute.read
    = [("http-equiv", some "Content-Type"),
        ("content", some ("text/html; charset=" ++ f.charset.name))]
  := by
  unfold charsetAttributes
  cases f.charset with
  | utf8 | utf16be | utf16le | ascii | latin1 => decide

theorem isLegible_of_mem_header
    {t : Calendar.Instant} {token : Token} (h : token ∈ f.header t) :
  token.IsLegible
  := by
  apply (f.denotes_document t Denotes.nil).legible
  rw [List.append_nil]
  apply List.mem_append_left _ h

/-- A reader of the header in `f.charset` is told the name of this charset, once. -/
theorem exists_announced_of_header (t : Calendar.Instant) :
  ∃ text lexemes content,
    f.charset.decode? (f.headerBytes t) = some text
      ∧ lexemes? text = some lexemes
      ∧ tagsNamed "meta" lexemes
          = [[("http-equiv", some "Content-Type"), ("content", some content)]]
      ∧ announced? content = some f.charset.name
  := by
  have hlegible : ∀ token ∈ f.header t, token.IsLegible := fun _ h => f.isLegible_of_mem_header h
  use f.charset.replaceAll (f.headerText t)
  use ((f.header t).flatMap Token.lexemes).map (Lexeme.replaced f.charset)
  use "text/html; charset=" ++ f.charset.name
  refine ⟨?_, ?_, ?_, announced?_append "text/html" f.charset⟩
  · rw [headerBytes, decode?_encode]
  · rw [headerText, lexemes?_replaceAll_render hlegible, lexemes?_render hlegible, Option.map_some]
  · rw [tagsNamed_replaced, tagsNamed_header, read_charsetAttributes]
    simp (disch := decide) only [List.map_cons, List.map_nil, Option.map_some, replaceAll_append,
      replaceAll_of_isAscii, replaceAll_name]

end DocumentFrame

end Html

/-! ### Layouts -/

/-- The layout names its charset in its content type and in its header at the time `t`, and
`Charset.ofName?` finds this charset under the name. -/
structure Layout.AnnouncesCharset (layout : Layout) (t : Calendar.Instant) : Prop where
  contentType : Charset.announced? layout.contentType = some layout.charset.name
  /-- A reader of the header is told the charset once, and it is that of the layout. -/
  header : ∃ bytes text lexemes content,
    layout.header t = some bytes
      ∧ layout.charset.decode? bytes = some text
      ∧ Html.lexemes? text = some lexemes
      ∧ Html.tagsNamed "meta" lexemes
          = [[("http-equiv", some "Content-Type"), ("content", some content)]]
      ∧ Charset.announced? content = some layout.charset.name
  lookup : Charset.ofName? layout.charset.name = some layout.charset
  /-- The name is resolved without a warning. -/
  resolve : Charset.resolve (some layout.charset.name) = pure layout.charset

namespace Html

open Charset

/-- The `bytes` are an HTML text in `charset`: they denote it but for characters that the charset
does not represent, and these stand in values and outside tags only. -/
structure IsWrittenIn (charset : Charset) (text : String) (bytes : List UInt8) : Prop where
  encoded : bytes = charset.encode text
  decoded : charset.decode? bytes = some (charset.replaceAll text)
  /-- The characters of ASCII, in which all markup is written, keep their places. -/
  ascii : ∀ (i : Nat) (c : Char), text.toList[i]? = some c → c.toNat < 0x80 →
    (charset.replaceAll text).toList[i]? = some c
  /-- A reader finds the same tags, with the same attributes but for the values. -/
  markup : ∃ lexemes, lexemes? text = some lexemes
    ∧ lexemes? (charset.replaceAll text) = some (lexemes.map (Lexeme.replaced charset))

theorem isWrittenIn_encode {tokens : List Token} (h : ∀ t ∈ tokens, t.IsLegible)
    (charset : Charset) :
  IsWrittenIn charset (render tokens) (charset.encode (render tokens))
  := by
  constructor
  · rfl
  · apply decode?_encode
  · intro i c hc hlt
    rw [toList_replaceAll, List.getElem?_map, hc, Option.map_some, replaceChar_of_lt hlt]
  · use tokens.flatMap Token.lexemes
    constructor
    · apply lexemes?_render h
    · rw [lexemes?_replaceAll_render h, lexemes?_render h, Option.map_some]

namespace HtmlLayout

theorem announcesCharset
    {layout : HtmlLayout} (hframe : layout.frame.charset = layout.charset)
    (t : Calendar.Instant) :
  layout.toLayout.AnnouncesCharset t
  := by
  obtain ⟨text, lexemes, content, hdecode, hread, htags, hname⟩ :=
    layout.frame.exists_announced_of_header t
  rw [hframe] at hdecode hname
  constructor
  · apply announced?_append
  · use layout.frame.headerBytes t, text, lexemes, content
    exact ⟨rfl, hdecode, hread, htags, hname⟩
  · apply ofName?_name
  · apply resolve_name

/-- All parts of a layout that `build` makes are in its charset. -/
theorem charset_of_build (settings : LayoutSettings) :
  (build settings).value.renderer.charset = (build settings).value.charset
    ∧ (build settings).value.frame.charset = (build settings).value.charset
  := ⟨rfl, rfl⟩

/-- Events that have `texts` have the bytes of these texts. -/
theorem map_toBytes
    {layout : HtmlLayout} (hrenderer : layout.renderer.charset = layout.charset)
    {events : List Event} {texts : List String}
    (h : events.map (fun event => (layout.renderer.renderText event).value) = texts.map .ok) :
  events.map (fun event => (layout.toLayout.toBytes event).value)
    = (texts.map layout.charset.encode).map .ok
  := by
  calc
    _ = (events.map fun event => (layout.renderer.renderText event).value).map
        (Except.map layout.charset.encode) := by
      rw [List.map_map, ← hrenderer]
      rfl
    _ = _ := by
      rw [h, List.map_map, List.map_map]
      rfl

/-- The header, the rows and the footer of a document may be encoded one by one. -/
theorem encode_document
    {layout : HtmlLayout} (hframe : layout.frame.charset = layout.charset)
    (t : Calendar.Instant) (texts : List String) :
  layout.frame.headerBytes t ++ (texts.map layout.charset.encode).flatten
      ++ layout.frame.footerBytes
    = layout.charset.encode
      (layout.frame.headerText t ++ String.join texts ++ DocumentFrame.footerText)
  := by
  rw [encode_append, encode_append, encode_join, DocumentFrame.headerBytes,
    DocumentFrame.footerBytes, hframe]

/-- What a layout that `build` makes writes, put together, `IsWrittenIn` the charset that the
layout announces. -/
theorem coherent_of_build
    {settings : LayoutSettings} {layout : HtmlLayout}
    (hlayout : (build settings).value = layout) (t : Calendar.Instant) {events : List Event}
    (hmessages : ∀ event ∈ events, ∃ message, event.message.text = .ok message) :
  layout.toLayout.AnnouncesCharset t
    ∧ ∃ (header : List UInt8) (pieces : List (List UInt8)) (footer : List UInt8)
        (texts : List String),
        layout.toLayout.header t = some header
          ∧ events.map (fun event => (layout.toLayout.toBytes event).value) = pieces.map .ok
          ∧ layout.toLayout.footer = some footer
          ∧ events.map (fun event => (layout.renderer.renderText event).value) = texts.map .ok
          ∧ IsWrittenIn layout.toLayout.charset
              (layout.frame.headerText t ++ String.join texts ++ DocumentFrame.footerText)
              (header ++ pieces.flatten ++ footer)
  := by
  obtain ⟨hrenderer, hframe⟩ := charset_of_build settings
  rw [hlayout] at hrenderer hframe
  choose! message hmessage using hmessages
  have hrows : Denotes (events.flatMap fun event => layout.renderer.rows event (message event))
      (layout.renderer.rowNodes events message) :=
    Denotes.flatMap (fun event => layout.renderer.denotes_rows event (message event)) events
  have hwritten :=
    isWrittenIn_encode (layout.frame.denotes_document t hrows).legible layout.charset
  rw [render_append, render_append, render_flatMap] at hwritten
  obtain ⟨texts, htexts⟩ : ∃ texts, texts = events.map fun event =>
      layout.renderer.rowText event (message event) := exists_eq
  have hrender : events.map (fun event => (layout.renderer.renderText event).value)
      = texts.map .ok := by
    rw [htexts, List.map_map]
    apply List.map_congr_left
    intro event hevent
    apply layout.renderer.renderText_of_text (hmessage event hevent)
  constructor
  · apply announcesCharset hframe
  · use layout.frame.headerBytes t, texts.map layout.charset.encode
    use layout.frame.footerBytes, texts
    refine ⟨rfl, map_toBytes hrenderer hrender, rfl, hrender, ?_⟩
    rw [encode_document hframe, htexts]
    apply hwritten

/-- Settings with a charset that does not represent all of the title. -/
def priceListSettings : LayoutSettings where
  showsLocation := true
  title := "Preise < 100 €"
  contentType := "text/html; charset=x"
  charset := some " iso_8859-1 "
  session := ⟨0⟩
  timestampFormat := default

/-- An event whose message and thread have characters of several scripts. -/
def priceEvent : Event where
  logger := ""
  level := .warn
  message := .ofText "größer als 100 €"
  thread := "Ω"
  time := 3
  stack := ⟨["€"]⟩
  map := ContextMap.empty.insert "<€>" "&"
  thrown := none
  source := none

/-- A document whose characters are not all represented in `latin1`. -/
theorem coherent_of_build_priceList :
  (build priceListSettings).value.charset = .latin1
    ∧ (build priceListSettings).value.toLayout.AnnouncesCharset ⟨0, 0⟩
    ∧ ∃ (header : List UInt8) (pieces : List (List UInt8)) (footer : List UInt8)
        (texts : List String),
        (build priceListSettings).value.toLayout.header ⟨0, 0⟩ = some header
          ∧ [priceEvent, priceEvent].map
              (fun event => ((build priceListSettings).value.toLayout.toBytes event).value)
            = pieces.map .ok
          ∧ (build priceListSettings).value.toLayout.footer = some footer
          ∧ [priceEvent, priceEvent].map
              (fun event => ((build priceListSettings).value.renderer.renderText event).value)
            = texts.map .ok
          ∧ IsWrittenIn (build priceListSettings).value.toLayout.charset
              ((build priceListSettings).value.frame.headerText ⟨0, 0⟩ ++ String.join texts
                ++ DocumentFrame.footerText)
              (header ++ pieces.flatten ++ footer)
  := by
  constructor
  · decide +kernel
  · apply coherent_of_build rfl ⟨0, 0⟩
    intro event hevent
    simp only [List.mem_cons, List.not_mem_nil, or_false, or_self] at hevent
    use "größer als 100 €"
    rw [hevent]
    rfl

end HtmlLayout

end Html

end LogRendering
