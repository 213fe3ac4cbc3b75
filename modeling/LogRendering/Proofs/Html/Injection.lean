import LogRendering.Proofs.Html.View

/-!
# Injected markup

The tags in the rows of an event, with the names of their attributes, depend on the level
of the event, on the parts that it has and on the number of the lines of its trace, but on
no text in it: no text adds a tag or an attribute, removes one, or breaks out of a quoted
value.  Every ampersand in the rows begins an entity.
-/

namespace LogRendering

/-- The number of the lines of the trace of `e` as the rows show it, which is zero if it cannot
be captured. -/
def ThrownError.traceLength (e : ThrownError) : Nat :=
  (TraceLines.captureOrEmpty e).value.lines.length

/-- The events `a` and `b` have the same level and the same parts, and traces of the same
length. -/
structure Event.Alike (a b : Event) : Prop where
  level : a.level = b.level
  stack : a.stack.isEmpty = b.stack.isEmpty
  map : a.map.isEmpty = b.map.isEmpty
  trace : a.thrown.map ThrownError.traceLength = b.thrown.map ThrownError.traceLength

namespace Html

/-! ### Tags -/

/-- A tag, without the values of its attributes.  A declaration and a comment count as tags that
are named by the marks with which they begin. -/
structure Tag where
  closes : Bool
  name : String
  attributes : List String
deriving DecidableEq

/-- The `Tag` that a lexeme is, if it is one. -/
def Lexeme.tag? : Lexeme → Option Tag
  | .opening name attributes => some ⟨false, name, attributes.map Prod.fst⟩
  | .closing name attributes => some ⟨true, name, attributes.map Prod.fst⟩
  | .declaration _ => some ⟨false, "!", []⟩
  | .comment _ => some ⟨false, "!--", []⟩
  | .char _ => none

/-- The tags of an HTML text, if it does not end inside one and `lexemes?` can read it. -/
def tags? (s : String) : Option (List Tag) :=
  (lexemes? s).map (List.filterMap Lexeme.tag?)

/-- The `Tag` that a token is, if it is one. -/
def Token.tag? : Token → Option Tag
  | .opening name attributes => some ⟨false, name, attributes.map Attribute.name⟩
  | .closing name => some ⟨true, name, []⟩
  | .declaration _ => some ⟨false, "!", []⟩
  | .comment _ => some ⟨false, "!--", []⟩
  | _ => none

theorem filterMap_tag?_charLexemes (s : String) :
  (charLexemes s).filterMap Lexeme.tag? = []
  := by
  simp [charLexemes, Lexeme.tag?]

theorem filterMap_tag?_lexemes (t : Token) :
  t.lexemes.filterMap Lexeme.tag? = t.tag?.toList
  := by
  cases t with
  | opening name attributes =>
      simp [Token.lexemes, Lexeme.tag?, Token.tag?, Attribute.read, Function.comp_def]
  | closing name => rfl
  | text content => apply filterMap_tag?_charLexemes
  | hardSpace => apply filterMap_tag?_charLexemes
  | declaration content => rfl
  | comment content => rfl

/-- The tags of the text of `tokens` are those of the tokens. -/
theorem tags?_render {tokens : List Token} (h : ∀ t ∈ tokens, t.IsLegible) :
  tags? (render tokens) = some (tokens.filterMap Token.tag?)
  := by
  rw [tags?, lexemes?_render h, Option.map_some]
  congr 1
  clear h
  induction tokens with
  | nil => rfl
  | cons t tokens ih =>
      rw [List.flatMap_cons, List.filterMap_append, filterMap_tag?_lexemes, ih]
      cases ht : t.tag? with
      | none => simp [ht]
      | some tag => simp [ht]

/-! ### The tags of rows -/

theorem filterMap_tag?_element
    (name : String) (attributes : List Attribute) (content : List Token) :
  (element name attributes content).filterMap Token.tag?
    = ⟨false, name, attributes.map Attribute.name⟩
      :: (content.filterMap Token.tag? ++ [⟨true, name, []⟩])
  := by
  simp [element, Token.tag?]

theorem filterMap_tag?_elementLine
    (name : String) (attributes : List Attribute) (content : List Token) :
  (elementLine name attributes content).filterMap Token.tag?
    = ⟨false, name, attributes.map Attribute.name⟩
      :: (content.filterMap Token.tag? ++ [⟨true, name, []⟩])
  := by
  simp [elementLine, filterMap_tag?_element, lineBreak, Token.tag?]

/-- Every line of a trace but the first comes after the tag `br`. -/
theorem filterMap_tag?_indented (lines : List String) :
  (lines.flatMap fun line => traceIndent ++ traceLine line).filterMap Token.tag?
    = List.replicate lines.length ⟨false, "br", []⟩
  := by
  induction lines with
  | nil => rfl
  | cons line lines ih =>
      rw [List.flatMap_cons, List.filterMap_append, ih]
      rfl

/-- The tags of a trace depend on the number of its lines. -/
theorem filterMap_tag?_traceTokens (trace : TraceLines) :
  (traceTokens trace).filterMap Token.tag?
    = List.replicate (trace.lines.length - 1) ⟨false, "br", []⟩
  := by
  unfold traceTokens
  cases trace.lines with
  | nil => rfl
  | cons first rest => apply filterMap_tag?_indented

namespace RowRenderer

variable (r : RowRenderer)

theorem filterMap_tag?_mainRow {a b : Event} (m n : String) (h : a.level = b.level) :
  (r.mainRow a m).filterMap Token.tag? = (r.mainRow b n).filterMap Token.tag?
  := by
  cases hshow : r.showsLocation with
  | false =>
      simp [mainRow, cell, filterMap_tag?_elementLine, lineBreak, Token.tag?, Attribute.of, h,
        hshow, List.filterMap_cons]
  | true =>
      simp [mainRow, cell, filterMap_tag?_elementLine, lineBreak, Token.tag?, Attribute.of, h,
        hshow, List.filterMap_cons]

theorem filterMap_tag?_contextRow (title label text text' : String) :
  (r.contextRow title label text).filterMap Token.tag?
    = (r.contextRow title label text').filterMap Token.tag?
  := by
  simp [contextRow, wideRow, filterMap_tag?_elementLine, filterMap_tag?_element, Token.tag?,
    List.filterMap_cons]

theorem filterMap_tag?_stackRow {s t : ContextStack} (h : s.isEmpty = t.isEmpty) :
  (r.stackRow s).filterMap Token.tag? = (r.stackRow t).filterMap Token.tag?
  := by
  unfold stackRow
  rw [h]
  split
  · rfl
  · apply filterMap_tag?_contextRow

theorem filterMap_tag?_mapRow {s t : ContextMap} (h : s.isEmpty = t.isEmpty) :
  (r.mapRow s).filterMap Token.tag? = (r.mapRow t).filterMap Token.tag?
  := by
  unfold mapRow
  rw [h]
  split
  · rfl
  · apply filterMap_tag?_contextRow

theorem filterMap_tag?_thrownRow?
    {e f : Option ThrownError}
    (h : e.map ThrownError.traceLength = f.map ThrownError.traceLength) :
  (r.thrownRow? e).value.filterMap Token.tag? = (r.thrownRow? f).value.filterMap Token.tag?
  := by
  cases e with
  | none =>
      cases f with
      | none => rfl
      | some f => contradiction
  | some e =>
      cases f with
      | none => contradiction
      | some f =>
          have hlength : e.traceLength = f.traceLength := Option.some.inj h
          unfold ThrownError.traceLength at hlength
          simp [thrownRow?, thrownRow, thrownTokens, wideRow, filterMap_tag?_elementLine,
            filterMap_tag?_element, filterMap_tag?_traceTokens, hlength]

/-- Events that are `Alike` have rows with the same tags, whatever the texts `m` and `n` of their
messages. -/
theorem filterMap_tag?_rows {a b : Event} (m n : String) (h : a.Alike b) :
  (r.rows a m).filterMap Token.tag? = (r.rows b n).filterMap Token.tag?
  := by
  simp only [rows, List.filterMap_append]
  rw [r.filterMap_tag?_mainRow m n h.level, r.filterMap_tag?_stackRow h.stack,
    r.filterMap_tag?_mapRow h.map, r.filterMap_tag?_thrownRow? h.trace]

end RowRenderer

/-! ### Entities in markup -/

/-- The `entities` of escaped text, and the space at which a line is not broken. -/
def markupEntities : List (List Char) :=
  entities ++ ["&nbsp;".toList]

theorem AmpersandsBegin.mono
    {es fs : List (List Char)} (h : es ⊆ fs) {cs : List Char} (hcs : AmpersandsBegin es cs) :
  AmpersandsBegin fs cs
  := by
  intro front rest heq
  obtain ⟨entity, hmem, hentity⟩ := hcs front rest heq
  use entity, h hmem

theorem ampersandsBegin_escaped (s : String) :
  AmpersandsBegin markupEntities (escape s).toList
  := (ampersandsBegin_escape s).mono (List.subset_append_left _ _)

theorem ampersandsBegin_of_notMem {s : String} (h : '&' ∉ s.toList) :
  AmpersandsBegin markupEntities s.toList
  := AmpersandsBegin.of_notMem _ h

theorem IsName.ampersandsBegin {s : String} (h : IsName s) :
  AmpersandsBegin markupEntities s.toList
  := by
  apply ampersandsBegin_of_notMem
  intro hmem
  exact h.ne_of_mem hmem (by decide) rfl

theorem Attribute.ampersandsBegin {a : Attribute} (h : IsName a.name) :
  AmpersandsBegin markupEntities a.render.toList
  := by
  unfold render
  cases a.value with
  | none =>
      rw [String.toList_append]
      apply (ampersandsBegin_of_notMem (by decide)).append h.ampersandsBegin
  | some value =>
      simp only [String.toList_append]
      apply AmpersandsBegin.append _ (ampersandsBegin_of_notMem (by decide))
      apply AmpersandsBegin.append _ (ampersandsBegin_escaped value)
      apply AmpersandsBegin.append _ (ampersandsBegin_of_notMem (by decide))
      apply (ampersandsBegin_of_notMem (by decide)).append h.ampersandsBegin

/-- Every ampersand in the text of `tokens` begins one of the `markupEntities`. -/
theorem ampersandsBegin_render {tokens : List Token} (h : ∀ t ∈ tokens, t.IsLegible) :
  AmpersandsBegin markupEntities (render tokens).toList
  := by
  rw [render, String.toList_join, List.flatMap_map]
  apply AmpersandsBegin.flatMap
  intro t ht
  have hlegible := h t ht
  cases t with
  | opening name attributes =>
      simp only [Token.render, String.toList_append, String.toList_join, List.flatMap_map]
      apply AmpersandsBegin.append _ (ampersandsBegin_of_notMem (by decide))
      apply ((ampersandsBegin_of_notMem (by decide)).append hlegible.1.ampersandsBegin).append
      apply AmpersandsBegin.flatMap
      intro a ha
      apply Attribute.ampersandsBegin (hlegible.2 a ha)
  | closing name =>
      simp only [Token.render, String.toList_append]
      apply AmpersandsBegin.append _ (ampersandsBegin_of_notMem (by decide))
      apply (ampersandsBegin_of_notMem (by decide)).append hlegible.ampersandsBegin
  | text content => apply ampersandsBegin_escaped
  | hardSpace => apply AmpersandsBegin.of_mem (by decide) (by decide)
  | declaration content =>
      simp only [Token.render, String.toList_append]
      apply AmpersandsBegin.append _ (ampersandsBegin_of_notMem (by decide))
      apply (ampersandsBegin_of_notMem (by decide)).append
      apply ampersandsBegin_of_notMem hlegible.2.1
  | comment content =>
      simp only [Token.render, String.toList_append]
      apply AmpersandsBegin.append _ (ampersandsBegin_of_notMem (by decide))
      apply (ampersandsBegin_of_notMem (by decide)).append
      apply ampersandsBegin_of_notMem hlegible.2

/-! ### Rows of events that are alike -/

/-- Events that are `Alike` have rows with the same tags, whatever their texts are, and every
ampersand in these rows begins one of the `markupEntities`. -/
theorem tags?_eq_of_alike
    (r : RowRenderer) {a b : Event} {m n : String} (h : a.Alike b)
    (ha : a.message.text = .ok m) (hb : b.message.text = .ok n) :
  ∃ s t tags, (r.renderText a).value = .ok s ∧ (r.renderText b).value = .ok t
    ∧ tags? s = some tags ∧ tags? t = some tags
    ∧ AmpersandsBegin markupEntities s.toList ∧ AmpersandsBegin markupEntities t.toList
  := by
  have hlegible := (r.denotes_rows a m).legible
  have hlegible' := (r.denotes_rows b n).legible
  use render (r.rows a m), render (r.rows b n), (r.rows a m).filterMap Token.tag?
  refine ⟨?_, ?_, ?_, ?_, ?_, ?_⟩
  · rw [r.value_renderText, ha]
    rfl
  · rw [r.value_renderText, hb]
    rfl
  · apply tags?_render hlegible
  · rw [r.filterMap_tag?_rows m n h]
    apply tags?_render hlegible'
  · apply ampersandsBegin_render hlegible
  · apply ampersandsBegin_render hlegible'

/-- An event with plain texts in all its parts. -/
def plainEvent : Event where
  logger := "app"
  level := .warn
  message := .ofText "ready"
  thread := "main"
  time := 7
  stack := ⟨["request"]⟩
  map := ContextMap.empty.insert "user" "alice"
  thrown := some ⟨"Failure", .ofText "boom", .leaf "Failure", [.ofText "why"], none⟩
  source := none

/-- An event with texts that look like markup in all its parts. -/
def markupEvent : Event where
  logger := "</td></tr>"
  level := .warn
  message := .ofText "<br>&nbsp;&lt;"
  thread := "\" onclick=\"run()\">"
  time := -7
  stack := ⟨["<script>", "'&'"]⟩
  map := ContextMap.empty.insert "<!--" "-->"
  thrown := some ⟨"Failure<T>", .ofText "</table>", .leaf "Failure", [.ofText "<hr>"], none⟩
  source := some ⟨"<a href=\"x\">.rs", 1, none⟩

/-- Texts that look like markup, as in `markupEvent`, do not change the tags of the rows. -/
theorem tags?_plainEvent_eq_markupEvent :
  plainEvent.Alike markupEvent
    ∧ ∃ s t tags,
      (RowRenderer.renderText ⟨true, ⟨0⟩, .utf8⟩ plainEvent).value = .ok s
        ∧ (RowRenderer.renderText ⟨true, ⟨0⟩, .utf8⟩ markupEvent).value = .ok t
        ∧ tags? s = some tags ∧ tags? t = some tags
        ∧ AmpersandsBegin markupEntities s.toList ∧ AmpersandsBegin markupEntities t.toList
  := by
  have h : plainEvent.Alike markupEvent := ⟨rfl, rfl, rfl, by decide +kernel⟩
  exact ⟨h, tags?_eq_of_alike ⟨true, ⟨0⟩, .utf8⟩ h rfl rfl⟩

end Html

end LogRendering
