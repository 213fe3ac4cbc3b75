import LogRendering.Proofs.Html.View
import LogRendering.Proofs.Number.Notation
import Mathlib.Logic.Function.Basic

/-!
# Rows determine views

The nodes of the rows of events determine the views of the events, wherever one row ends and
the next begins.  Together with the reading of rows this means that the texts of the rows
of two lists of events are equal exactly when the lists of their views are.
-/

namespace LogRendering.Html

/-! ### Texts -/

/-- Characters followed by anything but a character determine both. -/
theorem map_char_append_injective
    {cs ds : List Char} {x y : List Node} (hx : ∀ c z, x ≠ .char c :: z)
    (hy : ∀ c z, y ≠ .char c :: z) (h : cs.map Node.char ++ x = ds.map Node.char ++ y) :
  cs = ds ∧ x = y
  := by
  induction cs generalizing ds with
  | nil =>
      cases ds with
      | nil => exact ⟨rfl, h⟩
      | cons d ds =>
          exfalso
          apply hx d _ h
  | cons c cs ih =>
      cases ds with
      | nil =>
          exfalso
          apply hy c _ h.symm
      | cons d ds =>
          obtain ⟨hc, hcs⟩ := List.cons.inj h
          obtain ⟨rfl, rfl⟩ := ih hcs
          obtain rfl := Node.char.inj hc
          exact ⟨rfl, rfl⟩

theorem charNodes_append_injective
    {s t : String} {x y : List Node} (hx : ∀ c z, x ≠ .char c :: z)
    (hy : ∀ c z, y ≠ .char c :: z) (h : charNodes s ++ x = charNodes t ++ y) :
  s = t ∧ x = y
  := by
  obtain ⟨hchars, rfl⟩ := map_char_append_injective hx hy h
  exact ⟨String.toList_inj.mp hchars, rfl⟩

theorem textNodes_injective {s t : String} (h : textNodes s = textNodes t) :
  s = t
  := by
  apply escape_injective
  apply (charNodes_append_injective (x := []) (y := []) _ _ _).1
  · simp
  · simp
  · rw [List.append_nil, List.append_nil]
    apply h

/-! ### Levels -/

mutual

/-- The characters in a node, at any depth. -/
def Node.innerText : Node → List Char
  | .char c => [c]
  | .element _ _ content => innerTexts content

/-- The characters in a list of nodes, each by `innerText`. -/
def innerTexts : List Node → List Char
  | [] => []
  | node :: rest => node.innerText ++ innerTexts rest

end

theorem innerTexts_charNodes (s : String) :
  innerTexts (charNodes s) = s.toList
  := by
  unfold charNodes
  induction s.toList with
  | nil => rfl
  | cons c cs ih =>
      rw [List.map_cons, innerTexts, ih]
      rfl

theorem innerTexts_levelNodes (level : Level) :
  innerTexts (levelNodes level) = (escape level.name).toList
  := by
  unfold levelNodes
  split
  · simp [innerTexts, Node.innerText, elementNode, textNodes, innerTexts_charNodes]
  · split
    · simp [innerTexts, Node.innerText, elementNode, textNodes, innerTexts_charNodes]
    · apply innerTexts_charNodes

theorem Level.name_injective {l m : Level} (h : l.name = m.name) :
  l = m
  := by
  revert h
  cases l <;> cases m <;> decide

theorem levelNodes_injective {l m : Level} (h : levelNodes l = levelNodes m) :
  l = m
  := by
  apply Level.name_injective
  apply escape_injective
  apply String.toList_inj.mp
  rw [← innerTexts_levelNodes, h, innerTexts_levelNodes]

/-! ### Places -/

/-- A text up to its last colon, and what comes after that, determine each other. -/
theorem append_colon_injective
    {cs ds es fs : List Char} (hes : ':' ∉ es) (hfs : ':' ∉ fs)
    (h : cs ++ ':' :: es = ds ++ ':' :: fs) :
  cs = ds ∧ es = fs
  := by
  obtain ⟨middle, rfl, hmiddle⟩ | ⟨middle, rfl, hmiddle⟩ := List.append_eq_append_iff.mp h
  · cases middle with
    | nil => simpa using hmiddle
    | cons c middle =>
        exfalso
        apply hes
        rw [(List.cons.inj hmiddle).2]
        simp
  · cases middle with
    | nil => simpa using hmiddle.symm
    | cons c middle =>
        exfalso
        apply hfs
        rw [(List.cons.inj hmiddle).2]
        simp

theorem colon_notMem_decimalDigits (n : Nat) :
  ':' ∉ decimalDigits n
  := by
  intro h
  have hdigit := isDigit_of_mem_decimalDigits h
  contradiction

theorem placeText_some_ne_none (file : String) (line : UInt32) :
  placeText (some (file, line)) ≠ placeText none
  := by
  intro h
  have hchars : file.toList ++ ':' :: decimalDigits line.toNat = ['?'] ++ ':' :: ['?'] := by
    simpa [placeText, naturalText] using congrArg String.toList h
  obtain ⟨-, hdigits⟩ := append_colon_injective (colon_notMem_decimalDigits _) (by decide) hchars
  have hdigit : '?'.isDigit = true := by
    apply isDigit_of_mem_decimalDigits (n := line.toNat)
    simp [hdigits]
  contradiction

/-- The text `placeText` of a place determines it, even if the file has colons in its name. -/
theorem placeText_injective {p q : Option (String × UInt32)} (h : placeText p = placeText q) :
  p = q
  := by
  cases p with
  | none =>
      cases q with
      | none => rfl
      | some q =>
          exfalso
          apply placeText_some_ne_none _ _ h.symm
  | some p =>
      cases q with
      | none =>
          exfalso
          apply placeText_some_ne_none _ _ h
      | some q =>
          obtain ⟨file, line⟩ := p
          obtain ⟨file', line'⟩ := q
          have hchars := congrArg String.toList h
          simp only [placeText, naturalText, String.toList_append, String.toList_ofList,
            List.append_assoc] at hchars
          obtain ⟨hfile, hline⟩ := append_colon_injective
            (colon_notMem_decimalDigits _) (colon_notMem_decimalDigits _) hchars
          rw [String.toList_inj.mp hfile, UInt32.toNat_inj.mp (decimalDigits_injective hline)]

/-! ### Traces -/

/-- A line of a trace, followed by nodes `x` that do not begin with a character, determines
both. -/
theorem traceLineNodes_append_injective
    {k l : String} {x y : List Node} (hx : ∀ c z, x ≠ .char c :: z)
    (hy : ∀ c z, y ≠ .char c :: z) (h : traceLineNodes k ++ x = traceLineNodes l ++ y) :
  k = l ∧ x = y
  := by
  have hline : ∀ line, traceLineNodes line
      = ((escape line).toList ++ ['\n']).map Node.char := by
    intro line
    simp [traceLineNodes, textNodes, charNodes]
  rw [hline, hline] at h
  obtain ⟨htext, rfl⟩ := map_char_append_injective hx hy h
  rw [List.append_left_inj] at htext
  exact ⟨escape_injective (String.toList_inj.mp htext), rfl⟩

/-- What follows a line of a trace is not a character. -/
theorem flatMap_indented_ne_char (lines : List String) (c : Char) (z : List Node) :
  lines.flatMap (fun line => traceIndentNodes ++ traceLineNodes line) ≠ .char c :: z
  := by
  cases lines with
  | nil => simp
  | cons line lines => simp [traceIndentNodes, elementNode]

theorem flatMap_indented_injective
    {ks ls : List String}
    (h : ks.flatMap (fun line => traceIndentNodes ++ traceLineNodes line)
      = ls.flatMap (fun line => traceIndentNodes ++ traceLineNodes line)) :
  ks = ls
  := by
  induction ks generalizing ls with
  | nil =>
      cases ls with
      | nil => rfl
      | cons l ls => simp [traceIndentNodes] at h
  | cons k ks ih =>
      cases ls with
      | nil => simp [traceIndentNodes] at h
      | cons l ls =>
          rw [List.flatMap_cons, List.flatMap_cons, List.append_assoc, List.append_assoc] at h
          obtain ⟨rfl, hrest⟩ := traceLineNodes_append_injective
            (flatMap_indented_ne_char ks) (flatMap_indented_ne_char ls)
            (List.append_cancel_left h)
          rw [ih hrest]

/-- The nodes `traceNodes` of a trace determine its lines, even if there is only an empty one. -/
theorem traceNodes_injective {ks ls : List String} (h : traceNodes ks = traceNodes ls) :
  ks = ls
  := by
  cases ks with
  | nil =>
      cases ls with
      | nil => rfl
      | cons l ls => simp [traceNodes, traceLineNodes] at h
  | cons k ks =>
      cases ls with
      | nil => simp [traceNodes, traceLineNodes] at h
      | cons l ls =>
          obtain ⟨rfl, hrest⟩ := traceLineNodes_append_injective
            (flatMap_indented_ne_char ks) (flatMap_indented_ne_char ls) h
          rw [flatMap_indented_injective hrest]

/-! ### Rows -/

theorem Attribute.read_injective {a b : Attribute} (h : a.read = b.read) :
  a = b
  := by
  obtain ⟨name, value⟩ := a
  obtain ⟨name', value'⟩ := b
  obtain ⟨rfl, hvalue⟩ := Prod.mk.inj h
  obtain rfl : value = value' := Option.map_injective (fun _ _ => escape_injective) hvalue
  rfl

theorem elementNode_injective
    {name name' : String} {attributes attributes' : List Attribute}
    {content content' : List Node}
    (h : elementNode name attributes content = elementNode name' attributes' content') :
  name = name' ∧ attributes = attributes' ∧ content = content'
  := by
  obtain ⟨hname, hattributes, hcontent⟩ := Node.element.inj h
  exact ⟨hname, (List.map_inj_right fun _ _ => Attribute.read_injective).mp hattributes,
    hcontent⟩

/-- A row of `wideNodes` and what follows it determine the attributes and the content of its
cell. -/
theorem wideNodes_append_injective
    {attributes attributes' : List Attribute} {content content' x y : List Node}
    (h : wideNodes attributes content ++ x = wideNodes attributes' content' ++ y) :
  attributes = attributes' ∧ content = content' ∧ x = y
  := by
  obtain ⟨hrow, hrest⟩ := List.cons.inj h
  obtain ⟨-, -, hcells⟩ := elementNode_injective hrow
  obtain ⟨-, hattributes, hcontent⟩ := elementNode_injective (List.cons.inj hcells).1
  exact ⟨hattributes, hcontent, (List.cons.inj hrest).2⟩

/-- A row of `optionalNodes` is determined, together with what follows it, if that does not begin
with such a row. -/
theorem optionalNodes_append_injective
    {α : Type} (nodes : α → List Node)
    (hnodes : ∀ {a b : α} {x y : List Node}, nodes a ++ x = nodes b ++ y → a = b ∧ x = y)
    {a b : Option α} {x y : List Node} (hx : ∀ c z, x ≠ nodes c ++ z)
    (hy : ∀ c z, y ≠ nodes c ++ z)
    (h : optionalNodes nodes a ++ x = optionalNodes nodes b ++ y) :
  a = b ∧ x = y
  := by
  cases a with
  | none =>
      cases b with
      | none => exact ⟨rfl, h⟩
      | some b =>
          exfalso
          apply hx _ _ h
  | some a =>
      cases b with
      | none =>
          exfalso
          apply hy _ _ h.symm
      | some b =>
          obtain ⟨rfl, hrest⟩ := hnodes h
          exact ⟨rfl, hrest⟩

/-- The rows `optionalNodes` and what follows them are not `z` if neither a row that is there nor
what follows is. -/
theorem optionalNodes_append_ne
    {α : Type} {nodes : α → List Node} (a : Option α) {x z : List Node}
    (hnodes : ∀ a x, nodes a ++ x ≠ z) (hx : x ≠ z) :
  optionalNodes nodes a ++ x ≠ z
  := by
  cases a with
  | none => apply hx
  | some a => apply hnodes

namespace EventView

variable {columns : Nat}

theorem stackNodes_append_injective
    {s t : String} {x y : List Node}
    (h : stackNodes columns s ++ x = stackNodes columns t ++ y) :
  s = t ∧ x = y
  := by
  obtain ⟨-, hcontent, hrest⟩ := wideNodes_append_injective h
  exact ⟨(String.append_right_inj _).mp (textNodes_injective hcontent), hrest⟩

theorem mapNodes_append_injective
    {s t : String} {x y : List Node}
    (h : mapNodes columns s ++ x = mapNodes columns t ++ y) :
  s = t ∧ x = y
  := by
  obtain ⟨-, hcontent, hrest⟩ := wideNodes_append_injective h
  exact ⟨(String.append_right_inj _).mp (textNodes_injective hcontent), hrest⟩

theorem thrownNodes_append_injective
    {ks ls : List String} {x y : List Node}
    (h : thrownNodes columns ks ++ x = thrownNodes columns ls ++ y) :
  ks = ls ∧ x = y
  := by
  obtain ⟨-, hcontent, hrest⟩ := wideNodes_append_injective h
  exact ⟨traceNodes_injective hcontent, hrest⟩

/-- A row of `mapNodes` does not begin like one of `stackNodes`. -/
theorem mapNodes_append_ne (s t : String) (x y : List Node) :
  mapNodes columns s ++ x ≠ stackNodes columns t ++ y
  := by
  intro h
  obtain ⟨hattributes, -, -⟩ := wideNodes_append_injective h
  simp [contextAttributes, Attribute.of] at hattributes

/-- A row of `thrownNodes` does not begin like one for a part of the context. -/
theorem thrownNodes_append_ne
    (lines : List String) (title : String) (content x y : List Node) :
  thrownNodes columns lines ++ x ≠ wideNodes (contextAttributes columns title) content ++ y
  := by
  intro h
  obtain ⟨hattributes, -, -⟩ := wideNodes_append_injective h
  have hlength := congrArg List.length hattributes
  simp [contextAttributes, traceAttributes] at hlength

/-- The nodes `x` do not begin with an element. -/
def NoElement (x : List Node) : Prop :=
  ∀ name attributes content z, x ≠ .element name attributes content :: z

theorem NoElement.ne_wideNodes
    {x : List Node} (hx : NoElement x) (attributes : List Attribute) (content z : List Node) :
  x ≠ wideNodes attributes content ++ z
  := hx _ _ _ _

theorem NoElement.ne_thrownNodes
    {x : List Node} (hx : NoElement x) (lines : List String) (z : List Node) :
  x ≠ thrownNodes columns lines ++ z
  := hx.ne_wideNodes (traceAttributes columns) (traceNodes lines) z

theorem NoElement.thrownNodes_ne_wideNodes
    {x : List Node} (hx : NoElement x) (k : Option (List String)) (title : String)
    (content z : List Node) :
  optionalNodes (thrownNodes columns) k ++ x
    ≠ wideNodes (contextAttributes columns title) content ++ z
  := by
  apply optionalNodes_append_ne
  · intro lines x
    apply thrownNodes_append_ne
  · apply hx.ne_wideNodes

theorem NoElement.thrownNodes_ne_mapNodes
    {x : List Node} (hx : NoElement x) (k : Option (List String)) (text : String)
    (z : List Node) :
  optionalNodes (thrownNodes columns) k ++ x ≠ mapNodes columns text ++ z
  := hx.thrownNodes_ne_wideNodes k "Mapped Diagnostic Context" (textNodes ("MDC: " ++ text)) z

theorem NoElement.mapNodes_ne_stackNodes
    {x : List Node} (hx : NoElement x) (m : Option String) (k : Option (List String))
    (text : String) (z : List Node) :
  optionalNodes (mapNodes columns) m ++ (optionalNodes (thrownNodes columns) k ++ x)
    ≠ stackNodes columns text ++ z
  := by
  apply optionalNodes_append_ne
  · intro t x
    apply mapNodes_append_ne
  · apply hx.thrownNodes_ne_wideNodes

/-- The rows that need not be there, followed by `NoElement`, determine what they show. -/
theorem wideRows_append_injective
    {s t : Option String} {m n : Option String} {k l : Option (List String)} {x y : List Node}
    (hx : NoElement x) (hy : NoElement y)
    (h : optionalNodes (stackNodes columns) s
        ++ (optionalNodes (mapNodes columns) m ++ (optionalNodes (thrownNodes columns) k ++ x))
      = optionalNodes (stackNodes columns) t
        ++ (optionalNodes (mapNodes columns) n
          ++ (optionalNodes (thrownNodes columns) l ++ y))) :
  s = t ∧ m = n ∧ k = l ∧ x = y
  := by
  obtain ⟨hstack, hmaps⟩ := optionalNodes_append_injective (stackNodes columns)
    stackNodes_append_injective (hx.mapNodes_ne_stackNodes m k)
    (hy.mapNodes_ne_stackNodes n l) h
  obtain ⟨hmap, htraces⟩ := optionalNodes_append_injective (mapNodes columns)
    mapNodes_append_injective (hx.thrownNodes_ne_mapNodes k)
    (hy.thrownNodes_ne_mapNodes l) hmaps
  obtain ⟨htrace, hrest⟩ := optionalNodes_append_injective (thrownNodes columns)
    thrownNodes_append_injective hx.ne_thrownNodes hy.ne_thrownNodes htraces
  exact ⟨hstack, hmap, htrace, hrest⟩

/-! ### Main rows -/

/-- A cell of `cellNodes` and what follows it determine the attributes and the content of the
cell. -/
theorem cellNodes_append_injective
    {attributes attributes' : List Attribute} {content content' x y : List Node}
    (h : cellNodes attributes content ++ x = cellNodes attributes' content' ++ y) :
  attributes = attributes' ∧ content = content' ∧ x = y
  := by
  obtain ⟨hcell, hrest⟩ := List.cons.inj h
  obtain ⟨-, hattributes, hcontent⟩ := elementNode_injective hcell
  exact ⟨hattributes, hcontent, (List.cons.inj hrest).2⟩

theorem placeNodes_append_injective
    {p q : Option (String × UInt32)} {x y : List Node}
    (h : placeNodes p ++ x = placeNodes q ++ y) :
  p = q ∧ x = y
  := by
  obtain ⟨-, htext, hrest⟩ := cellNodes_append_injective h
  exact ⟨placeText_injective (textNodes_injective htext), hrest⟩

/-- The cell of the message does not begin like the cell `placeNodes` of a place. -/
theorem messageNodes_ne_placeNodes
    (message : String) (place : Option (String × UInt32)) (z : List Node) :
  cellNodes [.of "title" "Message"] (textNodes message) ≠ placeNodes place ++ z
  := by
  intro h
  rw [← List.append_nil (cellNodes _ (textNodes message))] at h
  obtain ⟨hattributes, -, -⟩ := cellNodes_append_injective h
  contradiction

/-- The node `mainRow` determines everything that it shows. -/
theorem mainRow_injective {v w : EventView} (h : v.mainRow = w.mainRow) :
  v.elapsed = w.elapsed ∧ v.thread = w.thread ∧ v.level = w.level ∧ v.logger = w.logger
    ∧ v.location = w.location ∧ v.message = w.message
  := by
  obtain ⟨-, -, hcells⟩ := elementNode_injective h
  have hcells := (List.cons.inj hcells).2
  simp only [List.append_assoc] at hcells
  obtain ⟨-, helapsed, hcells⟩ := cellNodes_append_injective hcells
  obtain ⟨-, hthread, hcells⟩ := cellNodes_append_injective hcells
  obtain ⟨-, hlevel, hcells⟩ := cellNodes_append_injective hcells
  obtain ⟨-, hlogger, hcells⟩ := cellNodes_append_injective hcells
  obtain ⟨hlocation, hcells⟩ := optionalNodes_append_injective placeNodes
    placeNodes_append_injective
    (messageNodes_ne_placeNodes v.message) (messageNodes_ne_placeNodes w.message) hcells
  obtain ⟨-, hmessage, -⟩ := cellNodes_append_injective (congrArg (· ++ []) hcells)
  exact ⟨integerText_injective (textNodes_injective helapsed), textNodes_injective hthread,
    levelNodes_injective hlevel, textNodes_injective hlogger, hlocation,
    textNodes_injective hmessage⟩

/-! ### Views -/

/-- The nodes of a view, followed by `NoElement`, determine the view. -/
theorem nodes_append_injective
    {v w : EventView} {x y : List Node} (hx : NoElement x) (hy : NoElement y)
    (h : v.nodes columns ++ x = w.nodes columns ++ y) :
  v = w ∧ x = y
  := by
  simp only [nodes, List.cons_append, List.append_assoc, List.cons.injEq] at h
  obtain ⟨-, hmain, -, h⟩ := h
  obtain ⟨hstack, hmap, htrace, hrest⟩ := wideRows_append_injective hx hy h
  obtain ⟨helapsed, hthread, hlevel, hlogger, hlocation, hmessage⟩ := mainRow_injective hmain
  constructor
  · cases v
    cases w
    simp_all only
  · apply hrest

theorem noElement_flatMap_nodes (vs : List EventView) :
  NoElement (vs.flatMap (nodes columns))
  := by
  intro name attributes content z
  cases vs with
  | nil => simp
  | cons v vs => simp [nodes]

/-- The nodes of the rows of a list `vs` of views determine the list. -/
theorem flatMap_nodes_injective
    {vs ws : List EventView} (h : vs.flatMap (nodes columns) = ws.flatMap (nodes columns)) :
  vs = ws
  := by
  induction vs generalizing ws with
  | nil =>
      cases ws with
      | nil => rfl
      | cons w ws => simp [nodes] at h
  | cons v vs ih =>
      cases ws with
      | nil => simp [nodes] at h
      | cons w ws =>
          obtain ⟨rfl, hrest⟩ := nodes_append_injective (noElement_flatMap_nodes vs)
            (noElement_flatMap_nodes ws) h
          rw [ih hrest]

end EventView

namespace RowRenderer

variable (r : RowRenderer)

/-! ### The rows of an event depend on its view only -/

theorem locationCell_eq (source : Option SourceLocation) :
  (if r.showsLocation then cell [] [.text (locationText source)] else [])
    = (if r.showsLocation then some (source.map fun source => (source.file, source.line))
        else none).elim [] fun place => cell [] [.text (placeText place)]
  := by
  rw [locationText_eq]
  split
  · rfl
  · rfl

theorem stackRow_eq (stack : ContextStack) :
  r.stackRow stack
    = (if stack.isEmpty then none else some stack.display).elim []
        (r.contextRow "Nested Diagnostic Context" "NDC: ")
  := by
  unfold stackRow
  split
  · rfl
  · rfl

theorem mapRow_eq (map : ContextMap) :
  r.mapRow map
    = (if map.isEmpty then none else some map.display).elim []
        (r.contextRow "Mapped Diagnostic Context" "MDC: ")
  := by
  unfold mapRow
  split
  · rfl
  · rfl

theorem value_thrownRow? (thrown : Option ThrownError) :
  (r.thrownRow? thrown).value
    = (thrown.map fun e => (TraceLines.captureOrEmpty e).value.lines).elim [] fun lines =>
        wideRow [.of "bgcolor" "#993300", .of "style" "color:White; font-size : xx-small;",
          r.allColumns] (traceTokens ⟨lines⟩)
  := by
  cases thrown with
  | none => rfl
  | some e => rfl

variable {r} in
/-- Events with the same view have the same rows. -/
theorem rows_eq_of_viewOf_eq
    {a b : Event} {m n : String} (h : r.viewOf a m = r.viewOf b n) :
  r.rows a m = r.rows b n
  := by
  simp only [viewOf, EventView.mk.injEq] at h
  obtain ⟨helapsed, hthread, hlevel, hlogger, hlocation, hmessage, hstack, hmap, htrace⟩ := h
  have hmain : r.mainRow a m = r.mainRow b n := by
    unfold mainRow
    rw [Session.toInt_elapsed, Session.toInt_elapsed, loggerLabel_eq, loggerLabel_eq,
      locationCell_eq, locationCell_eq, helapsed, hthread, hlevel, hlogger, hlocation, hmessage]
  rw [rows, rows, hmain, stackRow_eq, stackRow_eq, mapRow_eq, mapRow_eq, value_thrownRow?,
    value_thrownRow?, hstack, hmap, htrace]

/-! ### Texts of rows -/

/-- The text `r.rowsText events` is put together from a text for each view. -/
theorem exists_rowsText_eq_map_views :
  ∃ text : EventView → String, ∀ events,
    r.rowsText events = (r.views events).map fun vs => String.join (vs.map text)
  := by
  obtain ⟨text, htext⟩ := (Function.factorsThrough_iff
    fun p : Event × String => Html.render (r.rows p.1 p.2)).mp fun p q h =>
      congrArg Html.render (rows_eq_of_viewOf_eq h)
  use text
  intro events
  induction events with
  | nil => rfl
  | cons event events ih =>
      have hevent : (r.renderText event).value = (r.view event).map text := by
        rw [value_renderText, view]
        cases event.message.text with
        | error abort => rfl
        | ok message => apply congrArg Except.ok (congrFun htext (event, message))
      rw [rowsText, views, hevent, ih]
      cases r.view event with
      | error abort => rfl
      | ok v =>
          cases r.views events with
          | error abort => rfl
          | ok vs =>
              apply congrArg Except.ok (String.join_cons (s := text v)).symm

/-- The texts `rowsText` of the rows of two lists of events are equal exactly when the lists of
their `views` are, and there is a text whenever there are views. -/
theorem rowsText_eq_rowsText_iff (events events' : List Event) :
  (r.rowsText events = r.rowsText events' ↔ r.views events = r.views events')
    ∧ ((∃ text, r.rowsText events = .ok text) ↔ ∃ vs, r.views events = .ok vs)
  := by
  obtain ⟨text, htext⟩ := r.exists_rowsText_eq_map_views
  constructor
  · constructor
    · intro h
      cases hviews : r.views events with
      | error abort =>
          cases hviews' : r.views events' with
          | error abort' => simpa [htext, hviews, hviews', Except.map] using h
          | ok ws => simp [htext, hviews, hviews', Except.map] at h
      | ok vs =>
          cases hviews' : r.views events' with
          | error abort' => simp [htext, hviews, hviews', Except.map] at h
          | ok ws =>
              obtain ⟨tokens, hrows, hdenotes⟩ := r.exists_denotes_of_views hviews
              obtain ⟨tokens', hrows', hdenotes'⟩ := r.exists_denotes_of_views hviews'
              rw [hrows, hrows'] at h
              have hnodes : some (vs.flatMap (EventView.nodes r.columns))
                  = some (ws.flatMap (EventView.nodes r.columns)) := by
                rw [← hdenotes.nodes?_render, ← hdenotes'.nodes?_render, Except.ok.inj h]
              rw [EventView.flatMap_nodes_injective (Option.some.inj hnodes)]
    · intro h
      rw [htext, htext, h]
  · rw [htext]
    cases r.views events with
    | error abort => simp [Except.map]
    | ok vs => simp [Except.map]

end RowRenderer

end LogRendering.Html
