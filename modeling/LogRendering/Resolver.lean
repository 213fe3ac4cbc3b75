import LogRendering.Json.Decode
import LogRendering.Message.Basic
import LogRendering.Reported
import LogRendering.Sink.Basic

/-!
# Resolvers

A resolver writes the message of an event to a sink as one JSON value.  In stringified
form that is always the text of the message; in structured form the variant of the message
decides.  A message in several formats is written as it renders itself in JSON, if that is
one of its formats.
-/

namespace LogRendering

/-- The form in which `Resolver.resolve` writes messages. -/
inductive Strategy where
  | stringified
  | structured
deriving DecidableEq

/-- The settings of a `Resolver`. -/
structure ResolverConfig where
  /-- Every message is written as a text. -/
  stringified : Bool
deriving DecidableEq

namespace ResolverConfig

instance : Inhabited ResolverConfig := ⟨⟨false⟩⟩

/-- The fields of a `ResolverConfig` in JSON. -/
def fields : List (Json.Reader.FieldReader ResolverConfig) :=
  [⟨"stringified", do
    let b ← Json.Reader.truthValue
    return fun _ => ⟨b⟩⟩]

/-- The settings that a JSON text denotes, by their `fields`. -/
def ofJsonText (s : String) : Except Json.Fault ResolverConfig :=
  (Json.Reader.recordOf fields default).run s

/-- The JSON value of the settings, which `ofJsonText` reads back. -/
def toJson (config : ResolverConfig) : Json.Value :=
  .object [("stringified", .bool config.stringified)]

end ResolverConfig

/-- A writer of messages to sinks, by its `strategy`. -/
structure Resolver where
  strategy : Strategy
deriving DecidableEq

namespace Resolver

/-- The resolver with the given settings: `stringified` or `structured`. -/
def ofConfig (config : ResolverConfig) : Resolver :=
  ⟨if config.stringified then .stringified else .structured⟩

instance : Inhabited Resolver := ⟨ofConfig default⟩

/-- The name of the resolver in templates. -/
def name : String :=
  "message"

/-- The name of the format in which a message is asked for its JSON text by `writeVariant`. -/
def jsonFormat : String :=
  "JSON"

/-- The remark that a message is written by its `variant`. -/
def resolving (variant : Message.Variant) : Diagnostic where
  level := .trace
  message := "Resolving structured message"
  fields := [("variant", variant.name)]

variable {σ : Type} [JsonSink σ]

/-- Writes the text of a message between quotes: by `writeFormattable` if it can add the text to
a buffer. -/
def writeText (m : Message) (sink : σ) : Step σ :=
  match m.addTo with
  | some addTo => JsonSink.writeFormattable sink addTo
  | none => stepWith sink m.text (JsonSink.writeText sink)

/-- Writes a message by its `variant`. -/
def writeVariant (m : Message) (sink : σ) : Step σ :=
  match m.variant with
  | .simple text => JsonSink.writeText sink text
  | .multiformat formats =>
    if formats.supports jsonFormat then
      stepWith sink (formats.formatAs jsonFormat) (JsonSink.writeRaw sink)
    else writeText m sink
  | .object value => JsonSink.writeField sink value
  | .generic => writeText m sink

/-- Writes a message to a sink, in the form of the resolver: by `writeText` or by
`writeVariant`. -/
def resolve (r : Resolver) (m : Message) (sink : σ) : Reported (Step σ) :=
  match r.strategy with
  | .stringified => return writeText m sink
  | .structured => do
    Reported.remark (resolving m.variant)
    return writeVariant m sink

end Resolver

end LogRendering
