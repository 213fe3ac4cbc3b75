import LogRendering.Calendar.Instant
import LogRendering.Number.Notation
import LogRendering.Timestamp.Pattern

/-!
# Texts of instants

The text of each item of a pattern at a given instant, in Universal Time and in English.
-/

namespace LogRendering.Timestamp

open Calendar (Instant)

/-- The digits filled up at the left with `filler` to the given `width`. -/
def padLeft (width : Nat) (filler : Char) (digits : List Char) : List Char :=
  List.replicate (width - digits.length) filler ++ digits

/-- The number `n` in decimal digits, filled up with zeros to the given `width`. -/
def zeroPadded (width n : Nat) : List Char :=
  padLeft width '0' (decimalDigits n)

/-- An integer with its sign, written before positive numbers too if `always` is set. -/
def signOf (always : Bool) (n : Int) : List Char :=
  if n < 0 then ['-'] else if always then ['+'] else []

/-- An integer of at least the given `width`, which includes the sign.  Zeros stand between the
sign and the digits, spaces before the sign. -/
def padded (width : Nat) (padding : Padding) (always : Bool) (n : Int) : List Char :=
  let sign := signOf always n
  let digits := decimalDigits n.natAbs
  match padding with
  | .none => sign ++ digits
  | .zero => sign ++ padLeft (width - sign.length) '0' digits
  | .space => padLeft width ' ' (sign ++ digits)

/-- A number below 256 as a ten and a one, where the ten is a single character even if it exceeds
nine, and nothing or a space if it is zero and `padding` says so. -/
def tensAndOnes (padding : Padding) (n : Nat) : List Char :=
  let ones := [Char.ofNat ('0'.toNat + n % 10)]
  match n / 10, padding with
  | 0, .none => ones
  | 0, .space => ' ' :: ones
  | tens, _ => Char.ofNat ('0'.toNat + tens) :: ones

/-- A year of four digits, with a sign if it lies outside of the years 0 to 9999. -/
def yearText (padding : Padding) (year : Int) : List Char :=
  if 1000 ≤ year ∧ year ≤ 9999 then zeroPadded 4 year.toNat
  else if 0 ≤ year ∧ year ≤ 9999 then padded 4 padding false year
  else padded 5 padding true year

/-- The `hour` on a clock face, where the twelfth takes the place of zero. -/
def hourOfHalf (hour : Nat) : Nat :=
  if hour % 12 = 0 then 12 else hour % 12

/-- The text of a number of the instant `t`. -/
def NumericField.text (t : Instant) (padding : Padding) : NumericField → List Char
  | year => yearText padding t.date.year
  | century => tensAndOnes padding (t.date.year / 100 % 256).toNat
  | yearOfCentury => tensAndOnes padding (t.date.year % 100).toNat
  | weekYear => yearText padding (Calendar.weekYearOf t.day)
  | weekYearOfCentury => tensAndOnes padding (Calendar.weekYearOf t.day % 100).toNat
  | quarter => decimalDigits ((t.date.month - 1) / 3 + 1)
  | month => tensAndOnes padding t.date.month
  | day => tensAndOnes padding t.date.day
  | weekFromSunday => tensAndOnes padding (Calendar.weeksFrom 6 t.day)
  | weekFromMonday => tensAndOnes padding (Calendar.weeksFrom 0 t.day)
  | week => tensAndOnes padding (Calendar.weekOf t.day)
  | weekdayFromSunday => decimalDigits ((Calendar.weekdayOf t.day + 1) % 7)
  | weekdayFromMonday => decimalDigits (Calendar.weekdayOf t.day + 1)
  | ordinal => padded 3 padding false (Calendar.ordinalOf t.day)
  | hour => tensAndOnes padding t.hour
  | hourOfHalf => tensAndOnes padding (Timestamp.hourOfHalf t.hour)
  | minute => tensAndOnes padding t.minute
  | second => tensAndOnes padding t.second
  | nanosecond => padded 9 padding false t.fraction
  | timestamp => padded 9 padding false t.seconds

/-- The English names of the months. -/
def monthNames : List String :=
  ["January", "February", "March", "April", "May", "June", "July", "August", "September",
    "October", "November", "December"]

/-- The English names of the weekdays, from Monday on. -/
def weekdayNames : List String :=
  ["Monday", "Tuesday", "Wednesday", "Thursday", "Friday", "Saturday", "Sunday"]

/-- The name of the month of `t`, from `monthNames`. -/
def monthName (t : Instant) : List Char :=
  (monthNames.getD (t.date.month - 1) "").toList

/-- The name of the weekday of `t`, from `weekdayNames`. -/
def weekdayName (t : Instant) : List Char :=
  (weekdayNames.getD (Calendar.weekdayOf t.day) "").toList

/-- The first `count` of nine decimal places. -/
def decimalPlaces (count nanoseconds : Nat) : List Char :=
  zeroPadded count (nanoseconds / Nat.pow 10 (9 - count))

/-- The fraction of a second with as many groups of three places as it needs, after a
point; nothing for a whole second. -/
def shortFraction (nanoseconds : Nat) : List Char :=
  if nanoseconds = 0 then []
  else if nanoseconds % 1000000 = 0 then '.' :: decimalPlaces 3 nanoseconds
  else if nanoseconds % 1000 = 0 then '.' :: decimalPlaces 6 nanoseconds
  else '.' :: decimalPlaces 9 nanoseconds

/-- The form of an instant that RFC 3339 prescribes, with `shortFraction` for its fraction. -/
def rfc3339Text (t : Instant) : List Char :=
  let date := t.date
  yearText .zero date.year ++ '-' :: zeroPadded 2 date.month ++ '-' :: zeroPadded 2 date.day
    ++ 'T' :: zeroPadded 2 t.hour ++ ':' :: zeroPadded 2 t.minute
    ++ ':' :: zeroPadded 2 t.second ++ shortFraction t.fraction
    ++ ['+', '0', '0', ':', '0', '0']

/-- The offset of Universal Time from itself, with the given number of colons; with more than two
it shows the hours alone. -/
def zeroOffset : Nat → List Char
  | 0 => ['+', '0', '0', '0', '0']
  | 1 => ['+', '0', '0', ':', '0', '0']
  | 2 => ['+', '0', '0', ':', '0', '0', ':', '0', '0']
  | _ => ['+', '0', '0']

/-- The text of a part of the instant `t` with a fixed form. -/
def FixedField.text (t : Instant) : FixedField → List Char
  | shortMonth => (monthName t).take 3
  | longMonth => monthName t
  | shortWeekday => (weekdayName t).take 3
  | longWeekday => weekdayName t
  | lowerHalf => if t.hour < 12 then ['a', 'm'] else ['p', 'm']
  | upperHalf => if t.hour < 12 then ['A', 'M'] else ['P', 'M']
  | fraction => shortFraction t.fraction
  | places count point => (if point then ['.'] else []) ++ decimalPlaces count t.fraction
  | zoneName => ['U', 'T', 'C']
  | zoneOffset colons => zeroOffset colons
  | rfc3339 => rfc3339Text t

/-- The text of an item, if it has one: `readingOnly` and `invalid` items have none. -/
def Item.text? (t : Instant) : Item → Option (List Char)
  | literal c => some [c]
  | numeric field padding => some (field.text t padding)
  | fixed field => some (field.text t)
  | readingOnly => none
  | invalid => none

/-- The text of a list of items, if `Item.text?` gives one for all of them. -/
def itemsText? (t : Instant) : List Item → Option (List Char)
  | [] => some []
  | item :: rest => do
    let text ← item.text? t
    return text ++ (← itemsText? t rest)

end LogRendering.Timestamp
