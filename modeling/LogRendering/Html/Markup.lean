import LogRendering.Html.Escape

/-!
# Markup

HTML text as a sequence of tokens: tags with attributes, character data, and the few
other things that a document needs.  Character data and the values of attributes are
written escaped, so that they never look like markup.
-/

namespace LogRendering.Html

/-- An attribute of a tag, with a value or, like `noshade`, without. -/
structure Attribute where
  name : String
  value : Option String
deriving DecidableEq

namespace Attribute

/-- The attribute with the given value. -/
def of (name value : String) : Attribute :=
  ⟨name, some value⟩

/-- The text of an attribute: a space, the name, and the value between quotes, after `escape`. -/
def render (a : Attribute) : String :=
  match a.value with
  | none => " " ++ a.name
  | some value => " " ++ a.name ++ "=\"" ++ escape value ++ "\""

end Attribute

/-- A part of an HTML text; `text` is escaped when it is rendered, so that only the other
constructors give markup. -/
inductive Token where
  /-- A tag that opens an element. -/
  | opening (name : String) (attributes : List Attribute)
  /-- A tag that closes an element. -/
  | closing (name : String)
  /-- Character data. -/
  | text (content : String)
  /-- A space at which a line is not broken. -/
  | hardSpace
  /-- A declaration, such as that of the document type. -/
  | declaration (content : String)
  /-- A comment. -/
  | comment (content : String)
deriving DecidableEq

namespace Token

/-- The text of a token. -/
def render : Token → String
  | opening name attributes =>
    "<" ++ name ++ String.join (attributes.map Attribute.render) ++ ">"
  | closing name => "</" ++ name ++ ">"
  | text content => escape content
  | hardSpace => "&nbsp;"
  | declaration content => "<!" ++ content ++ ">"
  | comment content => "<!--" ++ content ++ "-->"

end Token

/-- The text of a sequence of tokens, each by `Token.render`. -/
def render (tokens : List Token) : String :=
  String.join (tokens.map Token.render)

/-- The end of a line. -/
def lineBreak : Token :=
  .text "\n"

/-- An element: the tag that opens it, its `content`, and the tag that closes it. -/
def element (name : String) (attributes : List Attribute) (content : List Token) :
    List Token :=
  .opening name attributes :: (content ++ [.closing name])

/-- An `element` followed by a `lineBreak`. -/
def elementLine (name : String) (attributes : List Attribute) (content : List Token) :
    List Token :=
  element name attributes content ++ [lineBreak]

end LogRendering.Html
