import LogRendering.Calendar.Date

/-!
# Instants

An instant of Universal Time is given by the seconds since the Unix epoch and the
nanoseconds after the beginning of the second.  A leap second is the second before it with
more than a thousand million nanoseconds.
-/

namespace LogRendering.Calendar

/-- An instant of Universal Time: `seconds` since the Unix epoch and `nanoseconds` of a second,
which are a whole second or more in a leap second. -/
structure Instant where
  seconds : Int
  nanoseconds : Nat
deriving DecidableEq

namespace Instant

/-- The day of `t`, counted from the Unix epoch. -/
def day (t : Instant) : Int :=
  t.seconds / 86400

/-- The date `dateOf t.day`. -/
def date (t : Instant) : Date :=
  dateOf t.day

/-- The seconds of `t` since the beginning of its day. -/
def secondOfDay (t : Instant) : Nat :=
  (t.seconds % 86400).toNat

/-- The hour of the day. -/
def hour (t : Instant) : Nat :=
  t.secondOfDay / 3600

/-- The minute of the hour. -/
def minute (t : Instant) : Nat :=
  t.secondOfDay / 60 % 60

/-- The second of the minute, which is 60 in a leap second: then `t.nanoseconds` are more than a
second. -/
def second (t : Instant) : Nat :=
  t.secondOfDay % 60 + t.nanoseconds / 1000000000

/-- The part of `t.nanoseconds` after the beginning of the second. -/
def fraction (t : Instant) : Nat :=
  t.nanoseconds % 1000000000

/-- The milliseconds of `t` since the Unix epoch. -/
def milliseconds (t : Instant) : Int :=
  t.seconds * 1000 + (t.nanoseconds / 1000000 : Nat)

end Instant

end LogRendering.Calendar
