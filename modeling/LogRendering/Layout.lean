import LogRendering.Calendar.Instant
import LogRendering.Charset
import LogRendering.Event

/-!
# Layouts

A layout turns events into bytes.  It may have bytes that come before the first event and
after the last; unless it says so it has none.
-/

namespace LogRendering

/-- A way of turning events into bytes: `header`, the bytes of the events, and `footer`. -/
structure Layout where
  /-- The bytes of an event. -/
  toBytes : Event → Reported (Except Abort (List UInt8))
  /-- The bytes before the first event, written at the given instant. -/
  header : Calendar.Instant → Option (List UInt8) := fun _ => none
  /-- The bytes after the last event. -/
  footer : Option (List UInt8) := none
  contentType : String
  charset : Charset

end LogRendering
