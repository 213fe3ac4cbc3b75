/-!
# Upper case, as far as ASCII is concerned

Besides the ASCII letters there are ten characters whose full upper case consists of
ASCII letters alone.  `upper` replaces all of these and leaves every other character as
it is; the upper case of a character left so holds a non-ASCII character, and therefore
`upper` decides whether the full upper case of a text is a given ASCII text.
-/

namespace LogRendering.Text

/-- The full upper case of a character, if that is ASCII; otherwise the character. -/
def upperChar (c : Char) : List Char :=
  match c.toNat with
  | 0xDF => ['S', 'S']
  | 0x131 => ['I']
  | 0x17F => ['S']
  | 0xFB00 => ['F', 'F']
  | 0xFB01 => ['F', 'I']
  | 0xFB02 => ['F', 'L']
  | 0xFB03 => ['F', 'F', 'I']
  | 0xFB04 => ['F', 'F', 'L']
  | 0xFB05 => ['S', 'T']
  | 0xFB06 => ['S', 'T']
  | _ => [c.toUpper]

/-- The text with `upperChar` of each character. -/
def upper (s : String) : String :=
  String.ofList (s.toList.flatMap upperChar)

/-- The texts `s` and `t` are equal up to the case of their ASCII letters. -/
def equalIgnoringCase (s t : String) : Bool :=
  s.toList.map Char.toUpper == t.toList.map Char.toUpper

end LogRendering.Text
