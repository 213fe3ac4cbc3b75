/-!
# Timestamp patterns

A pattern describes the text of an instant.  A percent sign begins a specifier, which may
have a padding or another modifier before its letter, and every other character stands for
itself.  A pattern is a list of items; a specifier that is not known, or that the pattern
ends in the middle of, is an invalid item.
-/

namespace LogRendering.Timestamp

/-- What fills the width of a number: nothing, a `zero` or a `space`. -/
inductive Padding where
  | none
  | zero
  | space
deriving DecidableEq

/-- The parts of an instant that are numbers, and take a `Padding`. -/
inductive NumericField where
  | year
  | century
  | yearOfCentury
  | weekYear
  | weekYearOfCentury
  | quarter
  | month
  | day
  | weekFromSunday
  | weekFromMonday
  | week
  | weekdayFromSunday
  | weekdayFromMonday
  | ordinal
  | hour
  | hourOfHalf
  | minute
  | second
  | nanosecond
  | timestamp
deriving DecidableEq

/-- The parts of an instant with a fixed form, which take no `Padding`. -/
inductive FixedField where
  | shortMonth
  | longMonth
  | shortWeekday
  | longWeekday
  | lowerHalf
  | upperHalf
  | fraction
  | places (count : Nat) (point : Bool)
  | zoneName
  | zoneOffset (colons : Nat)
  | rfc3339
deriving DecidableEq

/-- A part of a pattern: a character of its text, a specifier, or something that is `invalid`. -/
inductive Item where
  | literal (c : Char)
  | numeric (field : NumericField) (padding : Padding)
  | fixed (field : FixedField)
  /-- A specifier that is known, but has no text. -/
  | readingOnly
  | invalid
deriving DecidableEq

namespace Item

/-- The month, day and year of the century, separated by strokes. -/
def shortDate : List Item :=
  [.numeric .month .zero, .literal '/', .numeric .day .zero, .literal '/',
    .numeric .yearOfCentury .zero]

/-- The hour and minute. -/
def hourMinute : List Item :=
  [.numeric .hour .zero, .literal ':', .numeric .minute .zero]

/-- The hour, minute and second. -/
def timeOfDay : List Item :=
  hourMinute ++ [.literal ':', .numeric .second .zero]

/-- The items of a specifier of one letter, which are `invalid` if there is no such specifier. -/
def ofLetter : Char → List Item
  | 'A' => [.fixed .longWeekday]
  | 'B' => [.fixed .longMonth]
  | 'C' => [.numeric .century .zero]
  | 'D' => shortDate
  | 'F' =>
    [.numeric .year .zero, .literal '-', .numeric .month .zero, .literal '-',
      .numeric .day .zero]
  | 'G' => [.numeric .weekYear .zero]
  | 'H' => [.numeric .hour .zero]
  | 'I' => [.numeric .hourOfHalf .zero]
  | 'M' => [.numeric .minute .zero]
  | 'P' => [.fixed .lowerHalf]
  | 'R' => hourMinute
  | 'S' => [.numeric .second .zero]
  | 'T' => timeOfDay
  | 'U' => [.numeric .weekFromSunday .zero]
  | 'V' => [.numeric .week .zero]
  | 'W' => [.numeric .weekFromMonday .zero]
  | 'X' => timeOfDay
  | 'Y' => [.numeric .year .zero]
  | 'Z' => [.fixed .zoneName]
  | 'a' => [.fixed .shortWeekday]
  | 'b' => [.fixed .shortMonth]
  | 'c' =>
    [.fixed .shortWeekday, .literal ' ', .fixed .shortMonth, .literal ' ',
      .numeric .day .space, .literal ' '] ++ timeOfDay ++ [.literal ' ', .numeric .year .zero]
  | 'd' => [.numeric .day .zero]
  | 'e' => [.numeric .day .space]
  | 'f' => [.numeric .nanosecond .zero]
  | 'g' => [.numeric .weekYearOfCentury .zero]
  | 'h' => [.fixed .shortMonth]
  | 'j' => [.numeric .ordinal .zero]
  | 'k' => [.numeric .hour .space]
  | 'l' => [.numeric .hourOfHalf .space]
  | 'm' => [.numeric .month .zero]
  | 'n' => [.literal '\n']
  | 'p' => [.fixed .upperHalf]
  | 'q' => [.numeric .quarter .none]
  | 'r' =>
    [.numeric .hourOfHalf .zero, .literal ':', .numeric .minute .zero, .literal ':',
      .numeric .second .zero, .literal ' ', .fixed .upperHalf]
  | 's' => [.numeric .timestamp .none]
  | 't' => [.literal '\t']
  | 'u' => [.numeric .weekdayFromMonday .none]
  | 'v' =>
    [.numeric .day .space, .literal '-', .fixed .shortMonth, .literal '-',
      .numeric .year .zero]
  | 'w' => [.numeric .weekdayFromSunday .none]
  | 'x' => shortDate
  | 'y' => [.numeric .yearOfCentury .zero]
  | 'z' => [.fixed (.zoneOffset 0)]
  | '+' => [.fixed .rfc3339]
  | '%' => [.literal '%']
  | _ => [.invalid]

/-- The items of a specifier of one letter with a `padding`, which only single numbers have. -/
def ofPaddedLetter (padding : Padding) (c : Char) : List Item :=
  match ofLetter c with
  | [.numeric field _] => [.numeric field padding]
  | _ => [.invalid]

end Item

/-- How much of a specifier has been read by `itemsFrom`. -/
inductive Progress where
  /-- No specifier has begun. -/
  | outside
  /-- The percent sign. -/
  | begun
  /-- The percent sign and a padding. -/
  | padded (padding : Padding)
  /-- The percent sign and a number sign. -/
  | alternate
  /-- The percent sign and colons, of which there are one more than given. -/
  | colons (more : Nat)
  /-- The percent sign and a point. -/
  | point
  /-- The percent sign, a point or not, and a number of decimal places. -/
  | places (count : Nat) (point : Bool)

/-- The items of a pattern, from the given progress on.  A pattern that ends within a specifier
is `invalid`. -/
def itemsFrom : Progress → List Char → List Item
  | .outside, [] => []
  | _, [] => [.invalid]
  | .outside, c :: rest =>
    if c = '%' then itemsFrom .begun rest else .literal c :: itemsFrom .outside rest
  | .begun, c :: rest =>
    match c with
    | '-' => itemsFrom (.padded .none) rest
    | '0' => itemsFrom (.padded .zero) rest
    | '_' => itemsFrom (.padded .space) rest
    | '#' => itemsFrom .alternate rest
    | ':' => itemsFrom (.colons 0) rest
    | '.' => itemsFrom .point rest
    | '3' => itemsFrom (.places 3 false) rest
    | '6' => itemsFrom (.places 6 false) rest
    | '9' => itemsFrom (.places 9 false) rest
    | c => Item.ofLetter c ++ itemsFrom .outside rest
  | .padded padding, c :: rest => Item.ofPaddedLetter padding c ++ itemsFrom .outside rest
  | .alternate, c :: rest =>
    (if c = 'z' then .readingOnly else .invalid) :: itemsFrom .outside rest
  | .colons more, c :: rest =>
    if c = 'z' then .fixed (.zoneOffset (more + 1)) :: itemsFrom .outside rest
    else if c = ':' && more < 2 then itemsFrom (.colons (more + 1)) rest
    else .invalid :: itemsFrom .outside rest
  | .point, c :: rest =>
    match c with
    | 'f' => .fixed .fraction :: itemsFrom .outside rest
    | '3' => itemsFrom (.places 3 true) rest
    | '6' => itemsFrom (.places 6 true) rest
    | '9' => itemsFrom (.places 9 true) rest
    | _ => .invalid :: itemsFrom .outside rest
  | .places count point, c :: rest =>
    (if c = 'f' then .fixed (.places count point) else .invalid) :: itemsFrom .outside rest

/-- The items of `pattern`, from its beginning. -/
def items (pattern : String) : List Item :=
  itemsFrom .outside pattern.toList

end LogRendering.Timestamp
