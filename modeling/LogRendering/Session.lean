/-!
# Sessions

A session starts at an instant, given in milliseconds since the Unix epoch, and the
times of its events are shown as the milliseconds elapsed since then.  An elapsed time
that does not fit into 64 bits is replaced by the nearest one that does.
-/

namespace LogRendering

/-- The number nearest to `n` among those of 64 bits with sign. -/
def saturate (n : Int) : Int64 :=
  if n < Int64.minValue.toInt then Int64.minValue
  else if Int64.maxValue.toInt < n then Int64.maxValue
  else Int64.ofInt n

/-- A session, known by the millisecond `start` in which it starts. -/
structure Session where
  start : Int64
deriving DecidableEq

namespace Session

instance : Ord Session := ⟨fun a b => compare a.start b.start⟩

/-- The milliseconds from the start of the session to `time`. -/
def elapsed (session : Session) (time : Int64) : Int64 :=
  saturate (time.toInt - session.start.toInt)

end Session

end LogRendering
