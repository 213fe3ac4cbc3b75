import LogRendering.Text.Line
import LogRendering.Charset
import LogRendering.Interrupt
import LogRendering.Failure.Device
import LogRendering.Session
import LogRendering.Html.Escape
import LogRendering.Field.Display
import LogRendering.Field.Json
import LogRendering.Field.Inspect
import LogRendering.Context.Stack
import LogRendering.Level.Json
import LogRendering.Message.Pattern
import LogRendering.Message.Map
import LogRendering.Trace.Lines
import LogRendering.Html.Layout
import LogRendering.Resolver
import LogRendering.Sink.Writer
import LogRendering.Context.Map
import LogRendering.Proofs.Html.Tree
import LogRendering.Proofs.Html.RoundTrip
import LogRendering.Proofs.Html.Injection
import LogRendering.Proofs.Html.Document
import LogRendering.Proofs.Json.Grammar
import LogRendering.Proofs.Resolver.Formats
import LogRendering.Proofs.Trace.Interruption
import LogRendering.Proofs.Message.Provided
import LogRendering.Proofs.Message.Abandonment
import LogRendering.Proofs.Number.Rounding
import LogRendering.Proofs.Number.Shortest
import LogRendering.Proofs.Resolver.Calls
import LogRendering.Proofs.Json.Numeral
import LogRendering.Proofs.Json.NumberText
import LogRendering.Proofs.Json.Quoted
import LogRendering.Proofs.Json.Joined
import LogRendering.Proofs.Json.Spelling
import LogRendering.Proofs.SortedMap
import LogRendering.Proofs.Field.Sorted
import LogRendering.Proofs.Message.Faithful
import LogRendering.Proofs.Message.Appending
import LogRendering.Proofs.Sink.Failing
import LogRendering.Proofs.Trace.Containment
import LogRendering.Proofs.Charset.Decoding
import LogRendering.Proofs.Html.Replacement
import LogRendering.Proofs.Html.Coherence
import LogRendering.Proofs.Charset.Bytes
import LogRendering.Proofs.Text.Division
import LogRendering.Proofs.Trace.Splitting
import LogRendering.Proofs.Trace.Completeness
import LogRendering.Proofs.Text.Trimming
import LogRendering.Proofs.Thrown.Entries
import LogRendering.Proofs.Thrown.Frames
import LogRendering.Proofs.Message.Placeholders
import LogRendering.Proofs.Message.Verbatim
import LogRendering.Proofs.Message.Agreement
import LogRendering.Proofs.Field.Conversion
import LogRendering.Proofs.Message.Xml
import LogRendering.Proofs.Xml.Grammar
import LogRendering.Proofs.Message.XmlDocument
import LogRendering.Proofs.Timestamp.Pattern
import LogRendering.Proofs.Timestamp.Replacement
import LogRendering.Proofs.Calendar.Date
import LogRendering.Proofs.Timestamp.Reading
import LogRendering.Proofs.Timestamp.Agreement
import LogRendering.Proofs.Context.Insertions
import LogRendering.Proofs.Charset.RoundTrip
import LogRendering.Proofs.Level.Names
