import LogRendering.Message.Basic

/-!
# Parameterized messages

A pattern in which each placeholder, an opening curly bracket directly followed by a
closing one, stands for the next argument.  A placeholder without an argument is kept, and
further arguments are ignored.  A backslash before an opening bracket makes that bracket
an ordinary character.
-/

namespace LogRendering

/-- A part of a pattern: a character of its text, or a `placeholder`. -/
inductive PatternToken where
  | char (c : Char)
  | placeholder
deriving DecidableEq

/-- The parts of a pattern, from left to right.  A backslash before a brace is dropped, and two
braces are a `placeholder`. -/
def patternTokens : List Char → List PatternToken
  | [] => []
  | '\\' :: '{' :: rest => .char '{' :: patternTokens rest
  | '{' :: '}' :: rest => .placeholder :: patternTokens rest
  | c :: rest => .char c :: patternTokens rest

/-- A `pattern` and the `arguments` for its placeholders. -/
structure ParameterizedMessage where
  pattern : String
  arguments : List FieldValue

namespace ParameterizedMessage

/-- The draft with the parts of a pattern added, each `placeholder` filled with the next
argument.  An argument whose text fails contributes the part of the text that it has. -/
def addTokens (draft : Draft) : List FieldValue → List PatternToken → Draft
  | _, [] => draft
  | arguments, .char c :: rest =>
    addTokens (draft.add (.ofText (String.singleton c))) arguments rest
  | [], .placeholder :: rest => addTokens (draft.add (.ofText "\x7b\x7d")) [] rest
  | argument :: arguments, .placeholder :: rest =>
    addTokens (draft.add argument.display) arguments rest

/-- The buffer after the text of the message has been added to it: the `patternTokens` with their
arguments. -/
def addTo (m : ParameterizedMessage) (buffer : String) : Draft :=
  addTokens (.ofText buffer) m.arguments (patternTokens m.pattern.toList)

/-- The text of the message: what `addTo` adds to an empty buffer. -/
def text (m : ParameterizedMessage) : Except Abort String :=
  (m.addTo "").result

/-- The message with its capability `addTo`. -/
def toMessage (m : ParameterizedMessage) : Message where
  text := m.text
  addTo := some m.addTo
  simple := none
  multiformat := none
  object := none

end ParameterizedMessage

end LogRendering
