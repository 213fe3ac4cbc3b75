import LogRendering.Json.Cursor

/-!
# Reading texts between quotes

The characters up to the closing quote, with escapes replaced by what they stand for.
Two escapes by code unit may form a surrogate pair; a surrogate that is not part of a
pair is a fault, except where the text is only passed over.
-/

namespace LogRendering.Json.Reader

/-- The value of the hexadecimal digit `c`, in either case. -/
def hexValue? (c : Char) : Option Nat :=
  if '0' ≤ c && c ≤ '9' then some (c.toNat - '0'.toNat)
  else if 'a' ≤ c && c ≤ 'f' then some (c.toNat - 'a'.toNat + 10)
  else if 'A' ≤ c && c ≤ 'F' then some (c.toNat - 'A'.toNat + 10)
  else none

/-- The place after up to `budget` bytes of the given characters, which begin at `p`. -/
def positionAfterBytes (budget : Nat) (p : Position) : List Char → Position
  | [] => p
  | c :: rest =>
    if budget = 0 then p
    else if c.utf8Size < budget then
      positionAfterBytes (budget - c.utf8Size) (p.past c c.utf8Size) rest
    else p.past c budget

/-- The code unit of sixteen bits given by four hexadecimal digits. -/
def codeUnit : Reader Nat := do
  let cursor ← get
  let four := cursor.rest.take 4
  let ahead := positionAfterBytes 4 cursor.position four
  match four.map hexValue? with
  | [some a, some b, some c, some d] => do
    skip; skip; skip; skip
    return ((a * 16 + b) * 16 + c) * 16 + d
  | _ =>
    if four.foldl (fun size c => size + c.utf8Size) 0 < 4 then throw ⟨.endInText, ahead⟩
    else throw ⟨.invalidEscape, ahead⟩

/-- Moves over the character `expected`, which continues a surrogate pair. -/
def pairContinues (expected : Char) : Reader Unit := do
  match ← peek with
  | none => fail .endInText
  | some c => if c = expected then skip else failAhead .unfinishedSurrogatePair

/-- The character given by its `codeUnit`, or by the two of a surrogate pair. -/
def unicodeEscape : Reader Char := do
  let first ← codeUnit
  if 0xDC00 ≤ first && first ≤ 0xDFFF then fail .loneSurrogate
  else if 0xD800 ≤ first && first ≤ 0xDBFF then do
    pairContinues '\\'
    pairContinues 'u'
    let second ← codeUnit
    if 0xDC00 ≤ second && second ≤ 0xDFFF then
      return Char.ofNat (0x10000 + (first - 0xD800) * 0x400 + (second - 0xDC00))
    else fail .loneSurrogate
  else return Char.ofNat first

/-- The character that an escape of one letter stands for. -/
def shortEscape? : Char → Option Char
  | '"' => some '"'
  | '\\' => some '\\'
  | '/' => some '/'
  | 'b' => some '\x08'
  | 'f' => some '\x0c'
  | 'n' => some '\n'
  | 'r' => some '\r'
  | 't' => some '\t'
  | _ => none

/-- The character that an escape stands for, read from after the backslash: a `shortEscape?` or a
`unicodeEscape`. -/
def escape : Reader Char := do
  match ← peek with
  | none => fail .endInText
  | some 'u' => do
    skip
    unicodeEscape
  | some c =>
    match shortEscape? c with
    | some escaped => do
      skip
      return escaped
    | none => failAhead .invalidEscape

/-- Moves over an escape, whatever `codeUnit` it gives. -/
def skipEscape : Reader Unit := do
  match ← peek with
  | none => fail .endInText
  | some 'u' => do
    skip
    let _ ← codeUnit
  | some c => if (shortEscape? c).isSome then skip else failAhead .invalidEscape

/-- The characters up to the closing quote, after those read `before`, which are given in
reverse. -/
def textFrom : Nat → List Char → Reader String
  | 0, _ => fail .endInText
  | fuel + 1, before => do
    match ← peek with
    | none => fail .endInText
    | some '"' => do
      skip
      return String.ofList before.reverse
    | some '\\' => do
      skip
      let c ← escape
      textFrom fuel (c :: before)
    | some c =>
      if c.toNat < 0x20 then failAhead .controlCharacter
      else do
        skip
        textFrom fuel (c :: before)

/-- The text between quotes, read by `textFrom` from after the opening one. -/
def text : Reader String := do
  textFrom ((← get).rest.length + 1) []

/-- Moves over the characters up to the closing quote; `textFrom` reads them. -/
def skipTextFrom : Nat → Reader Unit
  | 0 => fail .endInText
  | fuel + 1 => do
    match ← peek with
    | none => fail .endInText
    | some '"' => skip
    | some '\\' => do
      skip
      skipEscape
      skipTextFrom fuel
    | some c =>
      if c.toNat < 0x20 then failAhead .controlCharacter
      else do
        skip
        skipTextFrom fuel

/-- Moves over the text between quotes, from after the opening one; `text` reads it. -/
def skipText : Reader Unit := do
  skipTextFrom ((← get).rest.length + 1)

end LogRendering.Json.Reader
