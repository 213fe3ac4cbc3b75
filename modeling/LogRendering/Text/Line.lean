/-!
# Lines

A line runs up to and including the next line feed, and the last one up to the end of
the text.  The content of a line leaves out the line feed at its end, and a carriage
return directly before that.
-/

namespace LogRendering.Text

/-- The lines of a text, each with the line feed that ends it; joined, they are the text. -/
def segments : List Char → List (List Char)
  | [] => []
  | c :: cs =>
    if c = '\n' then ['\n'] :: segments cs
    else
      match segments cs with
      | [] => [[c]]
      | line :: rest => (c :: line) :: rest

/-- The content of a `line`: what is left without the line feed at its end, and without a
carriage return before that. -/
def lineContent (line : List Char) : List Char :=
  match line.reverse with
  | '\n' :: '\r' :: rest => rest.reverse
  | '\n' :: rest => rest.reverse
  | _ => line

/-- The `lineContent` of each line of a text. -/
def lines (cs : List Char) : List (List Char) :=
  (segments cs).map lineContent

end LogRendering.Text
