import LogRendering.Text.Extending

/-!
# Quoted text

A text between double quotes, in which quotes, backslashes and the characters that would
not be seen are escaped.  A character without a short escape is given by its code point
in hexadecimal.
-/

namespace LogRendering.Text

/-- The escape of `c` by its code point in hexadecimal digits. -/
def codePointEscape (c : Char) : List Char :=
  '\\' :: 'u' :: '{' :: (Nat.toDigits 16 c.toNat ++ ['}'])

/-- The character `c` as it stands in quoted text: itself, or an escape. -/
def quotedChar (c : Char) : List Char :=
  match c with
  | '\x00' => ['\\', '0']
  | '\t' => ['\\', 't']
  | '\r' => ['\\', 'r']
  | '\n' => ['\\', 'n']
  | '"' => ['\\', '"']
  | '\\' => ['\\', '\\']
  | c => if isExtending c || !isPrintable c then codePointEscape c else [c]

/-- The text `s` between quotes, with `quotedChar` of each character. -/
def quoted (s : String) : String :=
  String.ofList ('"' :: (s.toList.flatMap quotedChar ++ ['"']))

end LogRendering.Text
