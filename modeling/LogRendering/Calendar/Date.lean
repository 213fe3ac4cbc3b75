/-!
# Dates

The days of the proleptic Gregorian calendar, numbered so that the first day of the year
1970 has the number zero.  A day is given by its number, or by its year, its month and its
place in the month.
-/

namespace LogRendering.Calendar

/-- The `year` has 366 days. -/
def isLeap (year : Int) : Bool :=
  year % 4 = 0 && (year % 100 ≠ 0 || year % 400 = 0)

/-- The number of leap years from the year 1 up to, but not including, `year`. -/
def leapYearsBefore (year : Int) : Int :=
  (year - 1) / 4 - (year - 1) / 100 + (year - 1) / 400

/-- The number of the first day of `year`, where the day of the Unix epoch has number zero. -/
def firstDay (year : Int) : Int :=
  365 * (year - 1970) + (leapYearsBefore year - leapYearsBefore 1970)

/-- The year of `day`.  In the mean a year has 146097 / 400 days; the year found with that is
corrected by at most one. -/
def yearOf (day : Int) : Int :=
  let year := 1970 + day * 400 / 146097
  if day < firstDay year then year - 1
  else if firstDay (year + 1) ≤ day then year + 1
  else year

/-- The lengths of the months of a year that is a `leap` year or not. -/
def monthLengths (leap : Bool) : List Nat :=
  [31, if leap then 29 else 28, 31, 30, 31, 30, 31, 31, 30, 31, 30, 31]

/-- The month and the day of the month of the day that comes `offset` days after the first
day of `month`, where the lengths of that month and the later ones are given. -/
def monthAndDay (month : Nat) : List Nat → Nat → Nat × Nat
  | [], offset => (month, offset + 1)
  | length :: rest, offset =>
    if offset < length then (month, offset + 1)
    else monthAndDay (month + 1) rest (offset - length)

/-- A day of the calendar. -/
structure Date where
  year : Int
  month : Nat
  day : Nat
deriving DecidableEq

/-- The place of `day` in the year `yearOf day`, counted from one. -/
def ordinalOf (day : Int) : Nat :=
  (day - firstDay (yearOf day)).toNat + 1

/-- The date of `day`, from `yearOf` and `monthAndDay`. -/
def dateOf (day : Int) : Date :=
  let year := yearOf day
  let (month, dayOfMonth) := monthAndDay 1 (monthLengths (isLeap year)) (ordinalOf day - 1)
  ⟨year, month, dayOfMonth⟩

/-- The place of `day` in its week, where Monday has the number zero. -/
def weekdayOf (day : Int) : Nat :=
  ((day + 3) % 7).toNat

/-- The Thursday of the week of `day`, which decides to which year the week belongs. -/
def thursdayOf (day : Int) : Int :=
  day - weekdayOf day + 3

/-- The year to which the week of `day` belongs, which is that of `thursdayOf day`. -/
def weekYearOf (day : Int) : Int :=
  yearOf (thursdayOf day)

/-- The number of the week of `day` in the year `weekYearOf day`. -/
def weekOf (day : Int) : Nat :=
  (ordinalOf (thursdayOf day) - 1) / 7 + 1

/-- The number of weeks that begin in the year of `day`, up to `day`, where a week begins with
the weekday of number `first`. -/
def weeksFrom (first : Nat) (day : Int) : Nat :=
  (ordinalOf day + 6 - (weekdayOf day + 7 - first) % 7) / 7

end LogRendering.Calendar
