/-!
# Escaped text

Text in HTML, in the content of an element or in a quoted attribute value: the five
characters that have a meaning in markup are replaced by entities.
-/

namespace LogRendering.Html

/-- The entity in place of one of the characters `&`, `<`, `>`, `"` and `'`; any other character
itself. -/
def escapeChar : Char → List Char
  | '&' => ['&', 'a', 'm', 'p', ';']
  | '<' => ['&', 'l', 't', ';']
  | '>' => ['&', 'g', 't', ';']
  | '"' => ['&', 'q', 'u', 'o', 't', ';']
  | '\'' => ['&', '#', 'x', '2', '7', ';']
  | c => [c]

/-- The text `s` with `escapeChar` of each character. -/
def escape (s : String) : String :=
  String.ofList (s.toList.flatMap escapeChar)

/-- The buffer with `escape s` added. -/
def pushEscaped (buffer s : String) : String :=
  buffer ++ escape s

end LogRendering.Html
