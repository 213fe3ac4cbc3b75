import LogRendering.Reported
import LogRendering.Text.Blank

/-!
# Charsets

The five charsets in which text leaves the library, their names and aliases, and the
encoding of text in each.  A character that a charset cannot represent is written as a
question mark.  No byte order mark is written, so that the encoding of a text is the
encoding of its characters, one after the other.
-/

namespace LogRendering

/-- A character encoding of output. -/
inductive Charset where
  | utf8
  | utf16be
  | utf16le
  | ascii
  | latin1
deriving DecidableEq

namespace Charset

instance : Inhabited Charset := ⟨utf8⟩

/-- All charsets. -/
def all : List Charset :=
  [utf8, utf16be, utf16le, ascii, latin1]

/-- The canonical name of a charset, under which `ofName?` finds it. -/
def name : Charset → String
  | utf8 => "UTF-8"
  | utf16be => "UTF-16BE"
  | utf16le => "UTF-16LE"
  | ascii => "US-ASCII"
  | latin1 => "ISO-8859-1"

/-- The names under which a charset is known, in the form that `normalize` gives. -/
def aliases : Charset → List String
  | utf8 => ["UTF-8", "UTF8"]
  | utf16be => ["UTF-16", "UTF16", "UTF-16BE", "UTF16BE"]
  | utf16le => ["UTF-16LE", "UTF16LE"]
  | ascii => ["US-ASCII", "ASCII", "ISO646-US"]
  | latin1 => ["ISO-8859-1", "ISO8859-1", "LATIN1", "L1"]

/-- The form of `s` in which names are compared: without blanks around it, in upper case, and
with dashes in place of underscores. -/
def normalize (s : String) : String :=
  String.ofList
    ((Text.trim s.toList).map fun c => if c = '_' then '-' else c.toUpper)

/-- The charset of whose `aliases` the normalized `s` is one. -/
def ofName? (s : String) : Option Charset :=
  all.find? (normalize s ∈ ·.aliases)

/-- The complaint about a `name` that `ofName?` does not find, and the charset used in its
place. -/
def unsupported (name : String) : Diagnostic where
  level := .warn
  message :=
    "Charset " ++ name ++ " is not supported for layout, using " ++ (default : Charset).name
  fields := [("charset", name), ("fallback", (default : Charset).name)]

/-- The charset that `ofName?` finds for an optional name; the default one if there is no name,
and the default one with the warning `unsupported` if the name is not known. -/
def resolve : Option String → Reported Charset
  | none => pure default
  | some name =>
    match ofName? name with
    | some charset => pure charset
    | none => do
      Reported.remark (unsupported name)
      return default

/-- The UTF-16 code units of a character. -/
def utf16Units (c : Char) : List Nat :=
  let n := c.toNat
  if n < 0x10000 then [n]
  else [0xD800 + (n - 0x10000) / 0x400, 0xDC00 + (n - 0x10000) % 0x400]

/-- The byte that stands for a character outside the charset. -/
def replacement : UInt8 :=
  '?'.toUInt8

/-- The bytes of `c`, or the `replacement` if the charset does not have this character. -/
def encodeChar (charset : Charset) (c : Char) : List UInt8 :=
  match charset with
  | utf8 => String.utf8EncodeChar c
  | utf16be => (utf16Units c).flatMap fun u => [(u / 256).toUInt8, (u % 256).toUInt8]
  | utf16le => (utf16Units c).flatMap fun u => [(u % 256).toUInt8, (u / 256).toUInt8]
  | ascii => [if c.toNat < 0x80 then c.toUInt8 else replacement]
  | latin1 => [if c.toNat < 0x100 then c.toUInt8 else replacement]

/-- The bytes of `s`, character by character. -/
def encode (charset : Charset) (s : String) : List UInt8 :=
  s.toList.flatMap charset.encodeChar

theorem encode_append (charset : Charset) (s t : String) :
  charset.encode (s ++ t) = charset.encode s ++ charset.encode t
  := by
  simp [encode, String.toList_append]

/-- Every charset is found under its `name`. -/
theorem ofName?_name (charset : Charset) :
  ofName? charset.name = some charset
  := by
  cases charset <;> decide +kernel

end Charset

end LogRendering
