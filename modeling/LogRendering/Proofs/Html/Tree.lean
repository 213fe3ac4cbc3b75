import LogRendering.Proofs.Html.Lexeme

/-!
# Trees

The elements of an HTML text as a tree.  A text has a tree only if its tags are properly
nested: every closing tag closes the innermost element that is open, and no element is
left open at the end.  Elements of three names are void: they have no content and are not
closed.  A sequence of tokens `Denotes` a list of nodes if these are what its text adds
to any tree that is being read; the relation is put together in the way in which the
tokens are.
-/

namespace LogRendering.Html

/-- A node of an HTML text: a character, or an element with its attributes and its
content. -/
inductive Node where
  | char (c : Char)
  | element (name : String) (attributes : List (String × Option String))
    (content : List Node)

/-- The names of elements without content, which no closing tag ends. -/
def voidNames : List String :=
  ["meta", "hr", "br"]

/-- An element that is open, with the nodes `before` it. -/
structure OpenElement where
  name : String
  attributes : List (String × Option String)
  before : List Node

/-- The nodes that the lexemes add to those already read.  There are none unless every
closing tag closes the innermost open element, without attributes of its own, and no element is
left open.  Declarations and comments add nothing. -/
def nodesFrom? : List OpenElement → List Node → List Lexeme → Option (List Node)
  | [], nodes, [] => some nodes
  | _ :: _, _, [] => none
  | opened, nodes, .char c :: rest => nodesFrom? opened (nodes ++ [.char c]) rest
  | opened, nodes, .opening name attributes :: rest =>
    if name ∈ voidNames then nodesFrom? opened (nodes ++ [.element name attributes []]) rest
    else nodesFrom? (⟨name, attributes, nodes⟩ :: opened) [] rest
  | opened, nodes, .declaration _ :: rest => nodesFrom? opened nodes rest
  | opened, nodes, .comment _ :: rest => nodesFrom? opened nodes rest
  | [], _, .closing _ _ :: _ => none
  | innermost :: opened, nodes, .closing name attributes :: rest =>
    if name = innermost.name ∧ attributes = [] then
      nodesFrom? opened
        (innermost.before ++ [.element innermost.name innermost.attributes nodes]) rest
    else none

/-- The nodes of an HTML text, if its tags are properly nested, by `nodesFrom?`. -/
def nodes? (s : String) : Option (List Node) :=
  (lexemes? s).bind (nodesFrom? [] [])

/-- The characters of a text as nodes. -/
def charNodes (s : String) : List Node :=
  s.toList.map .char

/-! ### The nodes of tokens -/

/-- The `tokens` can be read back, and wherever they stand their text adds the given `nodes` to
the tree. -/
structure Denotes (tokens : List Token) (nodes : List Node) : Prop where
  legible : ∀ t ∈ tokens, t.IsLegible
  read : ∀ (opened : List OpenElement) (before : List Node) (rest : List Lexeme),
    nodesFrom? opened before (tokens.flatMap Token.lexemes ++ rest)
      = nodesFrom? opened (before ++ nodes) rest

namespace Denotes

/-- The nodes of the text of `tokens` are the nodes that the tokens denote. -/
theorem nodes?_render {tokens : List Token} {nodes : List Node} (h : Denotes tokens nodes) :
  nodes? (render tokens) = some nodes
  := by
  have hread := h.read [] [] []
  rw [List.append_nil] at hread
  rw [nodes?, lexemes?_render h.legible, Option.bind_some, hread]
  rfl

theorem nil :
  Denotes [] []
  := by
  constructor
  · simp
  · simp

theorem append
    {tokens tokens' : List Token} {nodes nodes' : List Node} (h : Denotes tokens nodes)
    (h' : Denotes tokens' nodes') :
  Denotes (tokens ++ tokens') (nodes ++ nodes')
  := by
  constructor
  · intro t ht
    obtain ht | ht := List.mem_append.mp ht
    · apply h.legible t ht
    · apply h'.legible t ht
  · intro opened before rest
    rw [List.flatMap_append, List.append_assoc, h.read, h'.read, List.append_assoc]

theorem cons
    {t : Token} {tokens : List Token} {nodes nodes' : List Node} (h : Denotes [t] nodes)
    (h' : Denotes tokens nodes') :
  Denotes (t :: tokens) (nodes ++ nodes')
  := h.append h'

theorem flatMap
    {α : Type} {tokens : α → List Token} {nodes : α → List Node}
    (h : ∀ a, Denotes (tokens a) (nodes a)) (as : List α) :
  Denotes (as.flatMap tokens) (as.flatMap nodes)
  := by
  induction as with
  | nil => apply nil
  | cons a as ih =>
      rw [List.flatMap_cons, List.flatMap_cons]
      apply append (h a) ih

/-- Lexemes that are characters add these characters to the tree. -/
theorem nodesFrom?_charLexemes
    (s : String) (opened : List OpenElement) (before : List Node) (rest : List Lexeme) :
  nodesFrom? opened before (charLexemes s ++ rest)
    = nodesFrom? opened (before ++ charNodes s) rest
  := by
  unfold charLexemes charNodes
  induction s.toList generalizing before with
  | nil => simp
  | cons c cs ih =>
      rw [List.map_cons, List.cons_append, nodesFrom?, ih]
      simp

theorem text (content : String) :
  Denotes [.text content] (charNodes (escape content))
  := by
  constructor
  · simp [Token.IsLegible]
  · intro opened before rest
    simp only [List.flatMap_singleton, Token.lexemes]
    apply nodesFrom?_charLexemes

theorem lineBreak :
  Denotes [lineBreak] [.char '\n']
  := text "\n"

theorem hardSpace :
  Denotes [.hardSpace] (charNodes "&nbsp;")
  := by
  constructor
  · simp [Token.IsLegible]
  · intro opened before rest
    simp only [List.flatMap_singleton, Token.lexemes]
    apply nodesFrom?_charLexemes

theorem declaration {content : String} (h : (Token.declaration content).IsLegible) :
  Denotes [.declaration content] []
  := by
  constructor
  · simpa using h
  · simp [Token.lexemes, nodesFrom?]

theorem comment {content : String} (h : (Token.comment content).IsLegible) :
  Denotes [.comment content] []
  := by
  constructor
  · simpa using h
  · simp [Token.lexemes, nodesFrom?]

/-- The tag of an element of `voidNames` denotes that element. -/
theorem void
    {name : String} {attributes : List Attribute} (hvoid : name ∈ voidNames)
    (h : (Token.opening name attributes).IsLegible) :
  Denotes [.opening name attributes] [.element name (attributes.map Attribute.read) []]
  := by
  constructor
  · simpa using h
  · intro opened before rest
    simp [Token.lexemes, nodesFrom?, hvoid]

/-- What stands between the tags of an element that is not one of `voidNames` is its content. -/
theorem element
    {name : String} {attributes : List Attribute} {tokens : List Token} {nodes : List Node}
    (hvoid : name ∉ voidNames) (h : (Token.opening name attributes).IsLegible)
    (hcontent : Denotes tokens nodes) :
  Denotes (element name attributes tokens)
    [.element name (attributes.map Attribute.read) nodes]
  := by
  constructor
  · intro t ht
    simp only [Html.element, List.mem_cons, List.mem_append, List.not_mem_nil, or_false] at ht
    obtain rfl | ht | rfl := ht
    · apply h
    · apply hcontent.legible t ht
    · apply h.1
  · intro opened before rest
    have hread := hcontent.read (⟨name, attributes.map Attribute.read, before⟩ :: opened) []
      (.closing name [] :: rest)
    simp only [Html.element, Token.lexemes, List.flatMap_cons, List.flatMap_append,
      List.flatMap_nil, List.nil_append, List.cons_append, List.append_assoc]
    rw [nodesFrom?, if_neg hvoid, hread, nodesFrom?, if_pos ⟨rfl, rfl⟩]
    rfl

theorem elementLine
    {name : String} {attributes : List Attribute} {tokens : List Token} {nodes : List Node}
    (hvoid : name ∉ voidNames) (h : (Token.opening name attributes).IsLegible)
    (hcontent : Denotes tokens nodes) :
  Denotes (elementLine name attributes tokens)
    [.element name (attributes.map Attribute.read) nodes, .char '\n']
  := (element hvoid h hcontent).append lineBreak

end Denotes

end LogRendering.Html
