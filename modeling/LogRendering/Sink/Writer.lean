import LogRendering.Charset
import LogRendering.Sink.Basic
import LogRendering.Sink.Output

/-!
# JSON writers

The sink that writes compact JSON in UTF-8 to an output.  Raw text goes to the output as it
is, and a failure of the output is reported as such.  Values go through a serializer that
writes them piece by piece and reports a `JsonFailure`, which becomes a `LayoutError` by
`LayoutError.ofJsonFailure`.  Texts are formatted into a buffer that the writer keeps and
clears before each use.
-/

namespace LogRendering

/-- Writes the pieces of a JSON text to `output`, each by `writeAll`, up to the first failure. -/
def Output.writePieces (output : Output) : List String → Except JsonFailure Unit × Output
  | [] => (.ok (), output)
  | piece :: pieces =>
    match output.writeAll (Charset.utf8.encode piece) with
    | (.ok (), output) => output.writePieces pieces
    | (.error failure, output) => (.error (.device failure), output)

/-- A sink that writes to an `output`, which takes the UTF-8 bytes of its texts. -/
structure JsonWriter where
  output : Output
  /-- The buffer for texts that are formatted. -/
  scratch : String

namespace JsonWriter

/-- The writer to `output`, with an empty `scratch`. -/
def ofOutput (output : Output) : JsonWriter :=
  ⟨output, ""⟩

/-- A writer to the output `unlimited`, which accepts everything. -/
def buffered : JsonWriter :=
  ofOutput .unlimited

/-- Writes `s` to the output as it is, as a whole. -/
def writeBytes (w : JsonWriter) (s : String) : Step JsonWriter :=
  match w.output.writeAll (Charset.utf8.encode s) with
  | (.ok (), output) => (.ok (), { w with output })
  | (.error failure, output) => (.error (.failed (.output failure)), { w with output })

/-- Writes JSON to the output by its `pieces`; the failure of one is converted by
`LayoutError.ofJsonFailure`. -/
def writeJson (w : JsonWriter) (pieces : List String) : Step JsonWriter :=
  match w.output.writePieces pieces with
  | (.ok (), output) => (.ok (), { w with output })
  | (.error failure, output) =>
    (.error (.failed (.ofJsonFailure failure)), { w with output })

instance : JsonSink JsonWriter where
  writeText w s := w.writeJson (Json.quotePieces s)
  writeRaw w s := w.writeBytes s
  writeField w v := stepWith w v.toJson fun value => w.writeJson value.pieces
  writeFormattable w addTo :=
    let draft := addTo ""
    let w := { w with scratch := draft.text }
    stepWith w draft.result fun text => w.writeJson (Json.quotePieces text)

/-- The text that the output has `accepted` so far. -/
def text (w : JsonWriter) : String :=
  (String.fromUTF8? ⟨w.output.accepted.toArray⟩).getD ""

end JsonWriter

end LogRendering
