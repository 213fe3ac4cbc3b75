import LogRendering.Proofs.Html.View
import LogRendering.Proofs.Number.Notation

/-!
# Rows of a table

What the rows of an event add to a table: its main row, with a cell for each column, and a
row with a single cell across all columns for each of its parts.  Every row ends its line,
and none of them holds an element that does not belong into a row.
-/

namespace LogRendering.Html

/-! ### Parts of trees -/

namespace Node

/-- The node is an element of the given `name`. -/
def isNamed (name : String) : Node → Bool
  | .char _ => false
  | .element name' _ _ => name' = name

/-- What an element encloses. -/
def content : Node → List Node
  | .char _ => []
  | .element _ _ content => content

/-- The name of an element, and the number of columns that its attribute `colspan` says to
cover. -/
def cell? : Node → Option (String × Option String)
  | .char _ => none
  | .element name attributes _ => some (name, (attributes.lookup "colspan").join)

/-- The cells of the element `row`, each by `cell?`. -/
def cells (row : Node) : List (String × Option String) :=
  row.content.filterMap cell?

mutual

/-- The elements of the given `name` in a node, the node itself included. -/
def named (name : String) : Node → List Node
  | .char _ => []
  | .element name' attributes content =>
    (if name' = name then [.element name' attributes content] else [])
      ++ namedIn name content

/-- The elements of the given `name` in a list of nodes, at any depth. -/
def namedIn (name : String) : List Node → List Node
  | [] => []
  | node :: rest => named name node ++ namedIn name rest

end

end Node

/-- The elements `tr` among `nodes`. -/
def rowsAmong (nodes : List Node) : List Node :=
  nodes.filter (Node.isNamed "tr")

/-- The rows that the text `s` consists of, as `nodes?` reads it. -/
def rowsOfText (s : String) : List Node :=
  rowsAmong ((nodes? s).getD [])

/-- Directly after every row comes the end of a line. -/
def RowsEndLines : List Node → Prop
  | [] => True
  | node :: rest =>
    (node.isNamed "tr" → rest.head? = some (.char '\n')) ∧ RowsEndLines rest

/-! ### Elements of a name -/

namespace Node

variable (name : String)

@[simp]
theorem namedIn_append (nodes nodes' : List Node) :
  namedIn name (nodes ++ nodes') = namedIn name nodes ++ namedIn name nodes'
  := by
  induction nodes with
  | nil => rfl
  | cons node nodes ih => rw [List.cons_append, namedIn, namedIn, ih, List.append_assoc]

@[simp]
theorem namedIn_charNodes (s : String) :
  namedIn name (charNodes s) = []
  := by
  unfold charNodes
  induction s.toList with
  | nil => rfl
  | cons c cs ih => rw [List.map_cons, namedIn, ih, named, List.append_nil]

theorem namedIn_flatMap {α : Type} (nodes : α → List Node) (as : List α) :
  namedIn name (as.flatMap nodes) = as.flatMap fun a => namedIn name (nodes a)
  := by
  induction as with
  | nil => rfl
  | cons a as ih => rw [List.flatMap_cons, namedIn_append, ih, List.flatMap_cons]

@[simp]
theorem namedIn_nil :
  namedIn name [] = []
  := rfl

/-- The elements of a name in an element with other nodes after it. -/
@[simp]
theorem namedIn_elementNode_cons
    (name' : String) (attributes : List Attribute) (content rest : List Node) :
  namedIn name (elementNode name' attributes content :: rest)
    = (if name' = name then [elementNode name' attributes content] else [])
      ++ namedIn name content ++ namedIn name rest
  := by
  rw [namedIn, elementNode, named]

@[simp]
theorem namedIn_char_cons (c : Char) (rest : List Node) :
  namedIn name (.char c :: rest) = namedIn name rest
  := by
  rw [namedIn, named, List.nil_append]

end Node

/-! ### Rows of views -/

namespace EventView

/-- The names of the elements in the rows of events. -/
def rowNames : List String :=
  ["tr", "td", "font", "strong", "br"]

variable {name : String}

theorem namedIn_levelNodes (h : name ∉ rowNames) (level : Level) :
  Node.namedIn name (levelNodes level) = []
  := by
  simp only [rowNames, List.mem_cons, List.not_mem_nil, or_false, not_or] at h
  obtain ⟨-, -, hfont, hstrong, -⟩ := h
  unfold levelNodes
  split
  · simp [textNodes, Ne.symm hfont]
  · split
    · simp [textNodes, Ne.symm hfont, Ne.symm hstrong]
    · apply Node.namedIn_charNodes

theorem namedIn_traceNodes (h : name ∉ rowNames) (lines : List String) :
  Node.namedIn name (traceNodes lines) = []
  := by
  simp only [rowNames, List.mem_cons, List.not_mem_nil, or_false, not_or] at h
  obtain ⟨-, -, -, -, hbr⟩ := h
  cases lines with
  | nil => rfl
  | cons first rest =>
      simp [traceNodes, traceLineNodes, traceIndentNodes, textNodes, Node.namedIn_flatMap,
        Ne.symm hbr]

theorem namedIn_wideNodes
    (h : name ∉ rowNames) (attributes : List Attribute) {content : List Node}
    (hcontent : Node.namedIn name content = []) :
  Node.namedIn name (wideNodes attributes content) = []
  := by
  simp only [rowNames, List.mem_cons, List.not_mem_nil, or_false, not_or] at h
  obtain ⟨htr, htd, -⟩ := h
  simp [wideNodes, hcontent, Ne.symm htr, Ne.symm htd]

theorem namedIn_mainRow_cons (h : name ∉ rowNames) (v : EventView) (rest : List Node) :
  Node.namedIn name (v.mainRow :: rest) = Node.namedIn name rest
  := by
  have hlevel := namedIn_levelNodes h v.level
  simp only [rowNames, List.mem_cons, List.not_mem_nil, or_false, not_or] at h
  obtain ⟨htr, htd, -⟩ := h
  unfold mainRow
  cases v.location with
  | none =>
      simp [optionalNodes, cellNodes, textNodes, hlevel, Ne.symm htr, Ne.symm htd]
  | some place =>
      simp [optionalNodes, placeNodes, cellNodes, textNodes, hlevel, Ne.symm htr, Ne.symm htd]

theorem namedIn_optionalNodes
    {α : Type} {nodes : α → List Node} (h : ∀ a, Node.namedIn name (nodes a) = [])
    (a : Option α) :
  Node.namedIn name (optionalNodes nodes a) = []
  := by
  cases a with
  | none => rfl
  | some a => apply h

/-- The rows of events hold no elements but those of `rowNames`. -/
theorem namedIn_nodes (h : name ∉ rowNames) (columns : Nat) (v : EventView) :
  Node.namedIn name (v.nodes columns) = []
  := by
  have hstack : Node.namedIn name (optionalNodes (stackNodes columns) v.stack) = [] := by
    apply namedIn_optionalNodes
    intro text
    apply namedIn_wideNodes h _ (Node.namedIn_charNodes _ _)
  have hmap : Node.namedIn name (optionalNodes (mapNodes columns) v.map) = [] := by
    apply namedIn_optionalNodes
    intro text
    apply namedIn_wideNodes h _ (Node.namedIn_charNodes _ _)
  have htrace : Node.namedIn name (optionalNodes (thrownNodes columns) v.trace) = [] := by
    apply namedIn_optionalNodes
    intro lines
    apply namedIn_wideNodes h _ (namedIn_traceNodes h lines)
  rw [nodes, Node.namedIn_char_cons, namedIn_mainRow_cons h, Node.namedIn_char_cons,
    Node.namedIn_append, Node.namedIn_append, hstack, hmap, htrace]
  rfl

end EventView

/-! ### Rows and their cells -/

@[simp]
theorem rowsAmong_nil :
  rowsAmong [] = []
  := rfl

@[simp]
theorem rowsAmong_append (nodes nodes' : List Node) :
  rowsAmong (nodes ++ nodes') = rowsAmong nodes ++ rowsAmong nodes'
  := List.filter_append ..

@[simp]
theorem rowsAmong_char_cons (c : Char) (rest : List Node) :
  rowsAmong (.char c :: rest) = rowsAmong rest
  := rfl

@[simp]
theorem rowsAmong_row_cons (attributes : List Attribute) (content rest : List Node) :
  rowsAmong (elementNode "tr" attributes content :: rest)
    = elementNode "tr" attributes content :: rowsAmong rest
  := rfl

theorem rowsAmong_flatMap {α : Type} (nodes : α → List Node) (as : List α) :
  rowsAmong (as.flatMap nodes) = as.flatMap fun a => rowsAmong (nodes a)
  := List.filter_flatMap ..

theorem escape_naturalText (n : Nat) :
  escape (naturalText n) = naturalText n
  := by
  apply escape_eq_self
  intro c hc
  rw [naturalText, String.toList_ofList] at hc
  have hdigit := isDigit_of_mem_decimalDigits hc
  refine ⟨⟨?_, ?_, ?_, ?_⟩, ?_⟩
  all_goals
    rintro rfl
    contradiction

@[simp]
theorem cell?_elementNode (name : String) (attributes : List Attribute) (content : List Node) :
  (elementNode name attributes content).cell?
    = some (name, ((attributes.map Attribute.read).lookup "colspan").join)
  := rfl

@[simp]
theorem cell?_char (c : Char) :
  (Node.char c).cell? = none
  := rfl

theorem cells_elementNode (name : String) (attributes : List Attribute) (content : List Node) :
  (elementNode name attributes content).cells = content.filterMap Node.cell?
  := rfl

namespace EventView

/-- The node `v.mainRow` has a cell for each column. -/
theorem cells_mainRow (v : EventView) :
  v.mainRow.cells = List.replicate (columnCount v.location.isSome) ("td", none)
  := by
  obtain ⟨elapsed, thread, level, logger, location, message, stack, map, trace⟩ := v
  cases location with
  | none => rfl
  | some place => rfl

theorem rowsAmong_mainRow_cons (v : EventView) (rest : List Node) :
  rowsAmong (v.mainRow :: rest) = v.mainRow :: rowsAmong rest
  := rfl

/-- The row `wideNodes` has a single cell across all columns. -/
theorem map_cells_wideNodes
    {columns : Nat} {attributes : List Attribute} (content : List Node)
    (h : (attributes.map Attribute.read).lookup "colspan" = some (some (naturalText columns))) :
  (rowsAmong (wideNodes attributes content)).map Node.cells
    = [[("td", some (naturalText columns))]]
  := by
  simp [wideNodes, cells_elementNode, h]

theorem lookup_contextAttributes (columns : Nat) (title : String) :
  ((contextAttributes columns title).map Attribute.read).lookup "colspan"
    = some (some (naturalText columns))
  := by
  apply Eq.trans (b := some (some (escape (naturalText columns)))) rfl
  rw [escape_naturalText]

theorem lookup_traceAttributes (columns : Nat) :
  ((traceAttributes columns).map Attribute.read).lookup "colspan"
    = some (some (naturalText columns))
  := by
  apply Eq.trans (b := some (some (escape (naturalText columns)))) rfl
  rw [escape_naturalText]

/-- The cells of the rows `optionalNodes` for something that need not be there. -/
theorem map_cells_optionalNodes
    {α : Type} (nodes : α → List Node) {cells : List (String × Option String)}
    (h : ∀ a, (rowsAmong (nodes a)).map Node.cells = [cells]) (a : Option α) :
  (rowsAmong (optionalNodes nodes a)).map Node.cells
    = List.replicate (if a.isSome then 1 else 0) cells
  := by
  cases a with
  | none => rfl
  | some a => apply h

/-- The number of rows of the view `v` after its main row. -/
def partCount (v : EventView) : Nat :=
  (if v.stack.isSome then 1 else 0) + (if v.map.isSome then 1 else 0)
    + (if v.trace.isSome then 1 else 0)

/-- The rows of a view are `mainRow` with a cell for each column, and rows with a single cell
across all columns. -/
theorem map_cells_nodes (columns : Nat) (v : EventView) :
  (rowsAmong (v.nodes columns)).map Node.cells
    = List.replicate (columnCount v.location.isSome) ("td", none)
      :: List.replicate v.partCount [("td", some (naturalText columns))]
  := by
  have hstack := map_cells_optionalNodes (stackNodes columns)
    (fun _ => map_cells_wideNodes _ (lookup_contextAttributes columns _)) v.stack
  have hmap := map_cells_optionalNodes (mapNodes columns)
    (fun _ => map_cells_wideNodes _ (lookup_contextAttributes columns _)) v.map
  have htrace := map_cells_optionalNodes (thrownNodes columns)
    (fun _ => map_cells_wideNodes _ (lookup_traceAttributes columns)) v.trace
  rw [nodes, rowsAmong_char_cons, rowsAmong_mainRow_cons, rowsAmong_char_cons,
    rowsAmong_append, rowsAmong_append, List.map_cons, List.map_append, List.map_append,
    hstack, hmap, htrace, cells_mainRow, partCount, List.replicate_append_replicate,
    List.replicate_append_replicate, Nat.add_assoc]

end EventView

/-! ### Ends of lines -/

namespace RowsEndLines

theorem append {nodes nodes' : List Node} (h : RowsEndLines nodes) (h' : RowsEndLines nodes') :
  RowsEndLines (nodes ++ nodes')
  := by
  induction nodes with
  | nil => apply h'
  | cons node rest ih =>
      obtain ⟨hnode, hrest⟩ := h
      constructor
      · intro hrow
        change (rest ++ nodes').head? = some (.char '\n')
        rw [List.head?_append, hnode hrow]
        rfl
      · apply ih hrest

theorem flatMap
    {α : Type} {nodes : α → List Node} (h : ∀ a, RowsEndLines (nodes a)) (as : List α) :
  RowsEndLines (as.flatMap nodes)
  := by
  induction as with
  | nil => trivial
  | cons a as ih =>
      rw [List.flatMap_cons]
      apply append (h a) ih

theorem char (c : Char) :
  RowsEndLines [.char c]
  := by
  simp [RowsEndLines, Node.isNamed]

/-- An element on a line. -/
theorem line (name : String) (attributes : List Attribute) (content : List Node) :
  RowsEndLines [elementNode name attributes content, .char '\n']
  := by
  simp [RowsEndLines, Node.isNamed, elementNode]

theorem optionalNodes
    {α : Type} {nodes : α → List Node} (h : ∀ a, RowsEndLines (nodes a)) (a : Option α) :
  RowsEndLines (optionalNodes nodes a)
  := by
  cases a with
  | none => trivial
  | some a => apply h

/-- Every row of the view `v` ends its line. -/
theorem nodes (columns : Nat) (v : EventView) :
  RowsEndLines (v.nodes columns)
  := by
  have hmain : RowsEndLines [.char '\n', v.mainRow, .char '\n'] :=
    (char '\n').append (line "tr" [] _)
  have hstack : RowsEndLines (Html.optionalNodes (EventView.stackNodes columns) v.stack) :=
    optionalNodes (fun _ => line "tr" [] _) v.stack
  have hmap : RowsEndLines (Html.optionalNodes (EventView.mapNodes columns) v.map) :=
    optionalNodes (fun _ => line "tr" [] _) v.map
  have htrace : RowsEndLines (Html.optionalNodes (EventView.thrownNodes columns) v.trace) :=
    optionalNodes (fun _ => line "tr" [] _) v.trace
  apply hmain.append (hstack.append (hmap.append htrace))

end RowsEndLines

end LogRendering.Html
