import LogRendering.Field.Display
import LogRendering.Field.Json
import LogRendering.Text.UpperCase

/-!
# Messages

A message has a plain text, and it may have further capabilities: to add its text to a
buffer, to be a simple text, to render itself in several named formats, to be one
structured value.  The first of simple text, formats and value that a message has decides
its variant.
-/

namespace LogRendering

/-- The view of a message as one that renders itself in several formats.  The view is a
message as well, and its plain text need not be that of the message whose view it is. -/
structure Multiformat where
  /-- The plain text of the view. -/
  text : Except Abort String
  /-- The buffer after the text of the view has been added to it. -/
  addTo : Option (String → Draft)
  /-- The names of the formats. -/
  formats : List String
  /-- The text in the format of the given name. -/
  formatAs : String → Except Abort String

/-- One of the `formats` has the given name, up to the case of ASCII letters. -/
def Multiformat.supports (m : Multiformat) (name : String) : Bool :=
  m.formats.any fun format => Text.equalIgnoringCase format name

/-- What a log call has to say, by its capabilities; the last four are `none` where the message
lacks them. -/
structure Message where
  /-- The plain text. -/
  text : Except Abort String
  /-- The buffer after the text has been added to it. -/
  addTo : Option (String → Draft)
  /-- The text of the simple message that this one is. -/
  simple : Option String
  /-- The view of the message in several formats. -/
  multiformat : Option Multiformat
  /-- The structured value that the message is. -/
  object : Option FieldValue

namespace Message

/-- A message with a plain text and no further capability. -/
def plain (text : Except Abort String) : Message where
  text := text
  addTo := none
  simple := none
  multiformat := none
  object := none

/-- The message that is just the text `s`. -/
def ofText (s : String) : Message where
  text := .ok s
  addTo := some fun buffer => .ofText (buffer ++ s)
  simple := some s
  multiformat := none
  object := none

/-- The message that is one structured value, whose plain text is `v.toText`. -/
def ofField (v : FieldValue) : Message where
  text := v.toText
  addTo := none
  simple := none
  multiformat := none
  object := some v

/-- The kind as which a message is written in structured form, as `Message.variant` decides
it. -/
inductive Variant where
  | simple (text : String)
  | multiformat (formats : Multiformat)
  | object (value : FieldValue)
  | generic

/-- The name of a variant, as the remark `Resolver.resolving` gives it. -/
def Variant.name : Variant → String
  | simple _ => "simple"
  | multiformat _ => "multiformat"
  | object _ => "object"
  | generic => "generic"

/-- The variant of a message, by the first that it has of `simple`, `multiformat` and
`object`. -/
def variant (m : Message) : Variant :=
  match m.simple with
  | some text => .simple text
  | none =>
    match m.multiformat with
    | some formats => .multiformat formats
    | none =>
      match m.object with
      | some value => .object value
      | none => .generic

end Message

end LogRendering
