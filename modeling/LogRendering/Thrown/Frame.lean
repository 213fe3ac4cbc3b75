import LogRendering.Text.Blank
import LogRendering.Text.Line

/-!
# Frames

The text of a backtrace gives each symbol on a line, with or without the index of its
frame, and the location of the symbol on the next line.  It is collapsed to one entry for
each symbol, with the location in parentheses.
-/

namespace LogRendering.Frame

/-- The text without `head` at its beginning, if it begins with that. -/
def stripHead? (head : List Char) (cs : List Char) : Option (List Char) :=
  if head.isPrefixOf cs then some (cs.drop head.length) else none

/-- The location given by a line that begins with `at`, if it gives one. -/
def location? (line : List Char) : Option (List Char) :=
  stripHead? ['a', 't', ' '] line

/-- The symbol given by a line: the `line` without the index of its frame. -/
def symbol (line : List Char) : List Char :=
  let index := line.takeWhile Char.isDigit
  match index, stripHead? [':', ' '] (line.dropWhile Char.isDigit) with
  | _ :: _, some rest => rest
  | _, _ => line

/-- The `symbol` with its `location` in brackets. -/
def located (symbol location : List Char) : List Char :=
  symbol ++ '(' :: (location ++ [')'])

/-- The entries for the given lines, after a symbol whose `location?` has not been seen; a
location without a symbol before it is an entry of its own. -/
def collapse : Option (List Char) → List (List Char) → List (List Char)
  | none, [] => []
  | some pending, [] => [pending]
  | pending, line :: rest =>
    match location? line, pending with
    | some location, some symbol => located symbol location :: collapse none rest
    | some location, none => location :: collapse none rest
    | none, some earlier => earlier :: collapse (some (symbol line)) rest
    | none, none => collapse (some (symbol line)) rest

/-- The lines of a text after `Text.trim`, without empty ones. -/
def trimmedLines (cs : List Char) : List (List Char) :=
  ((Text.lines cs).map Text.trim).filter fun line => !line.isEmpty

/-- The entries of a backtrace, one for each symbol: `collapse` of its `trimmedLines`. -/
def entries (backtrace : String) : List String :=
  (collapse none (trimmedLines backtrace.toList)).map String.ofList

end LogRendering.Frame
