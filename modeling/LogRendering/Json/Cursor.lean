import LogRendering.Json.Fault

/-!
# Cursors in JSON text

A reader of JSON text moves a cursor through the text, and it either returns a value or
stops with a fault.  A fault is reported at the cursor, or one byte ahead of it when the
character at the cursor is to blame.
-/

namespace LogRendering.Json

/-- The `rest` of a text, and the `position` where it begins. -/
structure Cursor where
  rest : List Char
  position : Position

/-- The cursor at the beginning of a text. -/
def Cursor.ofText (s : String) : Cursor :=
  ⟨s.toList, .start⟩

/-- A computation that reads from a `Cursor` and may stop with a `Fault`. -/
abbrev Reader (α : Type) : Type :=
  StateT Cursor (Except Fault) α

namespace Reader

/-- Stops at the cursor with the given `flaw`. -/
def fail {α : Type} (flaw : Flaw) : Reader α := do
  throw ⟨flaw, (← get).position⟩

/-- Stops with the given `flaw` one byte ahead of the cursor, or at the cursor at the end of the
text. -/
def failAhead {α : Type} (flaw : Flaw) : Reader α := do
  let cursor ← get
  match cursor.rest with
  | [] => throw ⟨flaw, cursor.position⟩
  | c :: _ => throw ⟨flaw, cursor.position.past c 1⟩

/-- The character at the cursor, which does not move. -/
def peek : Reader (Option Char) := do
  return (← get).rest.head?

/-- Moves over one character. -/
def skip : Reader Unit :=
  modify fun cursor =>
    match cursor.rest with
    | [] => cursor
    | c :: rest => ⟨rest, cursor.position.past c c.utf8Size⟩

/-- Moves over all characters that satisfy `p`, up to the first that does not, and returns
them. -/
def takeWhile (p : Char → Bool) : Reader (List Char) := do
  let cursor ← get
  let taken := cursor.rest.takeWhile p
  set (Cursor.mk (cursor.rest.dropWhile p)
    (taken.foldl (fun position c => position.past c c.utf8Size) cursor.position))
  return taken

/-- The four characters that may stand between the parts of JSON text. -/
def isBlank (c : Char) : Bool :=
  c = ' ' || c = '\n' || c = '\t' || c = '\r'

/-- Moves over the characters that satisfy `isBlank`; the character after them. -/
def peekPastBlanks : Reader (Option Char) := do
  let _ ← takeWhile isBlank
  peek

/-- Moves over the given characters, and stops with `expectedLiteral` at another one. -/
def literal : List Char → Reader Unit
  | [] => pure ()
  | expected :: more => do
    match ← peek with
    | none => fail .endInValue
    | some c =>
      if c = expected then do
        skip
        literal more
      else failAhead .expectedLiteral

end Reader

end LogRendering.Json
