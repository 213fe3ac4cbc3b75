import LogRendering.Proofs.Calendar.Date
import LogRendering.Proofs.Number.Notation
import LogRendering.Timestamp.Field

/-!
# Reading timestamps

The built-in formats as a reader knows them: a date and a time of day in the form of ISO 8601
and RFC 3339, the classic form, and an integer.  A text is read from left to right and as a
whole, by readers that know nothing of how it was written.  The parts that the formats write are
read as what they were written for.
-/

namespace LogRendering.Timestamp

open Calendar (Date)

/-! ### Dates and times of day -/

/-- A time of day, to the second. -/
structure Clock where
  hour : Nat
  minute : Nat
  second : Nat

/-- The time `c` is one of a day, of which any minute may have a leap second. -/
structure Clock.Exists (c : Clock) : Prop where
  hour_lt : c.hour < 24
  minute_lt : c.minute < 60
  second_le : c.second ≤ 60

instance (c : Clock) : Decidable c.Exists :=
  decidable_of_iff (c.hour < 24 ∧ c.minute < 60 ∧ c.second ≤ 60)
    ⟨fun ⟨hhour, hminute, hsecond⟩ => ⟨hhour, hminute, hsecond⟩,
      fun ⟨hhour, hminute, hsecond⟩ => ⟨hhour, hminute, hsecond⟩⟩

/-- A date and a time of day, to the millisecond. -/
structure DateTime where
  date : Date
  clock : Clock
  millisecond : Nat

/-- The milliseconds of `t` since the Unix epoch, where the second 60 of a minute counts as the
one after the second 59. -/
def DateTime.milliseconds (t : DateTime) : Int :=
  (((t.date.number * 24 + t.clock.hour) * 60 + t.clock.minute) * 60 + t.clock.second) * 1000
    + t.millisecond

/-! ### Written dates and times of day -/

/-- A date `d` of a year of four digits, in the form of ISO 8601. -/
def dateText (d : Date) : List Char :=
  zeroPadded 4 d.year.toNat ++ '-' :: (zeroPadded 2 d.month ++ '-' :: zeroPadded 2 d.day)

/-- A time of day `c` in the form of ISO 8601. -/
def clockText (c : Clock) : List Char :=
  zeroPadded 2 c.hour ++ ':' :: (zeroPadded 2 c.minute ++ ':' :: zeroPadded 2 c.second)

theorem isDigit_of_mem_zeroPadded {width n : Nat} {c : Char} (h : c ∈ zeroPadded width n) :
  c.isDigit = true
  := by
  rw [zeroPadded, padLeft, List.mem_append, List.mem_replicate] at h
  obtain ⟨-, rfl⟩ | h := h
  · rfl
  · exact isDigit_of_mem_decimalDigits h

theorem length_zeroPadded {width n : Nat} (hpos : 0 < width) (hn : n < Nat.pow 10 width) :
  (zeroPadded width n).length = width
  := by
  have hlength : (decimalDigits n).length ≤ width :=
    (Nat.length_toDigits_le_iff (by decide) hpos).mpr hn
  rw [zeroPadded, padLeft, List.length_append, List.length_replicate]
  omega

theorem ofDigitChars_decimalDigits (n : Nat) :
  Nat.ofDigitChars 10 (decimalDigits n) 0 = n
  := Nat.ofDigitChars_ten_toDigits

theorem ofDigitChars_zeroPadded (width n : Nat) :
  Nat.ofDigitChars 10 (zeroPadded width n) 0 = n
  := by
  rw [zeroPadded, padLeft, Nat.ofDigitChars_append, Nat.ofDigitChars_replicate_zero, Nat.mul_zero]
  apply ofDigitChars_decimalDigits

/-- The numbers of a date `d` in a year of four digits have no more digits than are written. -/
theorem date_lt {d : Date} (hyear : d.year ≤ 9999) (h : d.Exists) :
  d.year.toNat < Nat.pow 10 4 ∧ d.month < Nat.pow 10 2 ∧ d.day < Nat.pow 10 2
  := by
  have hmonth := h.month_le
  have hday := Nat.le_trans h.day_le (Calendar.monthLength_le _ _)
  show _ < 10000 ∧ _ < 100 ∧ _ < 100
  omega

theorem clock_lt {c : Clock} (h : c.Exists) :
  c.hour < Nat.pow 10 2 ∧ c.minute < Nat.pow 10 2 ∧ c.second < Nat.pow 10 2
  := by
  obtain ⟨hhour, hminute, hsecond⟩ := h
  show _ < 100 ∧ _ < 100 ∧ _ < 100
  omega

theorem length_dateText {d : Date} (hyear : d.year ≤ 9999) (h : d.Exists) :
  (dateText d).length = 10
  := by
  simp [dateText, length_zeroPadded, date_lt hyear h]

theorem length_clockText {c : Clock} (h : c.Exists) :
  (clockText c).length = 8
  := by
  simp [clockText, length_zeroPadded, clock_lt h]

/-! ### Readers -/

/-- A computation that reads from the beginning of a text and leaves the rest. -/
abbrev Reader := StateT (List Char) Option

namespace Reader

/-- What `reader` makes of a text of which it leaves nothing. -/
def readWhole? {α : Type} (reader : Reader α) (text : String) : Option α :=
  match reader.run text.toList with
  | some (a, []) => some a
  | _ => none

theorem readWhole?_ofList {α : Type} {reader : Reader α} {text : List Char} {a : α}
    (h : reader.run text = some (a, [])) :
  reader.readWhole? (String.ofList text) = some a
  := by
  rw [readWhole?, String.toList_ofList, h]

/-! ### Readers of marks and numbers -/

/-- Reads the characters `cs`. -/
def mark (cs : List Char) : Reader Unit := fun text =>
  if text.take cs.length = cs then some ((), text.drop cs.length) else none

/-- Reads the character `c` if it comes next, and tells if it does. -/
def found (c : Char) : Reader Bool := fun text =>
  if text.head? = some c then some (true, text.tail) else some (false, text)

/-- Reads a number of `count` digits. -/
def digits (count : Nat) : Reader Nat := fun text =>
  if (text.take count).length = count && (text.take count).all Char.isDigit then
    some (Nat.ofDigitChars 10 (text.take count) 0, text.drop count)
  else none

/-- Reads all digits that come next, of which there is at least one. -/
def allDigits : Reader (List Char) := fun text =>
  if text.takeWhile Char.isDigit = [] then none
  else some (text.takeWhile Char.isDigit, text.dropWhile Char.isDigit)

/-- Reads an integer, which has a minus sign before it if it is negative. -/
def integer : Reader Int := do
  let negative ← found '-'
  let digits ← allDigits
  let magnitude : Int := Nat.ofDigitChars 10 digits 0
  return if negative then -magnitude else magnitude

@[simp]
theorem mark_append (cs rest : List Char) :
  (mark cs).run (cs ++ rest) = some ((), rest)
  := by
  simp [StateT.run, mark]

@[simp]
theorem mark_cons (c : Char) (rest : List Char) :
  (mark [c]).run (c :: rest) = some ((), rest)
  := mark_append [c] rest

@[simp]
theorem found_cons (c : Char) (rest : List Char) :
  (found c).run (c :: rest) = some (true, rest)
  := by
  simp [StateT.run, found]

theorem found_of_ne {c : Char} {text : List Char} (h : text.head? ≠ some c) :
  (found c).run text = some (false, text)
  := if_neg h

theorem digits_zeroPadded {count n : Nat} (hpos : 0 < count) (hn : n < Nat.pow 10 count)
    (rest : List Char) :
  (digits count).run (zeroPadded count n ++ rest) = some (n, rest)
  := by
  have hlength := length_zeroPadded hpos hn
  have hall : (zeroPadded count n).all Char.isDigit = true :=
    List.all_eq_true.mpr fun _ => isDigit_of_mem_zeroPadded
  simp [StateT.run, digits, List.take_left' hlength, List.drop_left' hlength, hlength, hall,
    ofDigitChars_zeroPadded]

/-- The digits `ds` are read as far as there are any. -/
theorem allDigits_append {ds rest : List Char} (hne : ds ≠ []) (hds : ∀ c ∈ ds, c.isDigit = true)
    (hrest : ∀ c, rest.head? = some c → c.isDigit = false) :
  allDigits.run (ds ++ rest) = some (ds, rest)
  := by
  have hstop : rest.takeWhile Char.isDigit = [] ∧ rest.dropWhile Char.isDigit = rest := by
    cases rest with
    | nil => exact ⟨rfl, rfl⟩
    | cons c rest =>
        have hc := hrest c rfl
        simp [hc]
  simp [StateT.run, allDigits, List.takeWhile_append_of_pos hds, List.dropWhile_append_of_pos hds,
    hstop.1, hstop.2, hne]

theorem allDigits_decimalDigits (n : Nat) :
  allDigits.run (decimalDigits n) = some (decimalDigits n, [])
  := by
  have h : allDigits.run (decimalDigits n ++ []) = some (decimalDigits n, []) := by
    apply allDigits_append (decimalDigits_ne_nil n) fun _ => isDigit_of_mem_decimalDigits
    rintro _ ⟨⟩
  rwa [List.append_nil] at h

theorem integer_minus (n : Nat) :
  integer.run ('-' :: decimalDigits n) = some (-(n : Int), [])
  := by
  simp [integer, allDigits_decimalDigits, ofDigitChars_decimalDigits]

theorem integer_decimalDigits (n : Nat) :
  integer.run (decimalDigits n) = some ((n : Int), [])
  := by
  have hsign : (found '-').run (decimalDigits n) = some (false, decimalDigits n) := by
    apply found_of_ne
    intro hhead
    obtain ⟨rest, hrest⟩ := List.head?_eq_some_iff.mp hhead
    exact decimalDigits_ne_minus _ _ hrest
  simp [integer, hsign, allDigits_decimalDigits, ofDigitChars_decimalDigits]

/-- The text of an integer is read by `integer` as the integer. -/
theorem integer_integerDigits (n : Int) :
  integer.run (integerDigits n) = some (n, [])
  := by
  unfold integerDigits
  split
  next hneg =>
    have hmagnitude : -(n.natAbs : Int) = n := by omega
    rw [integer_minus, hmagnitude]
  next hneg =>
    have hmagnitude : (n.natAbs : Int) = n := by omega
    rw [integer_decimalDigits, hmagnitude]

/-! ### Readers of dates and times of day -/

/-- Reads a date as its year, month and day. -/
def date : Reader Date := do
  let year ← digits 4
  mark ['-']
  let month ← digits 2
  mark ['-']
  let day ← digits 2
  let date : Date := ⟨year, month, day⟩
  if date.Exists then return date else failure

/-- Reads a time of day as its hour, minute and second. -/
def clock : Reader Clock := do
  let hour ← digits 2
  mark [':']
  let minute ← digits 2
  mark [':']
  let second ← digits 2
  let clock : Clock := ⟨hour, minute, second⟩
  if clock.Exists then return clock else failure

/-- Reads the decimal places of a second after a point, if there is one, and cuts them to
milliseconds. -/
def fraction : Reader Nat := do
  if ← found '.' then
    let places ← allDigits
    return Nat.ofDigitChars 10 places 0 * 1000 / Nat.pow 10 places.length
  else return 0

/-- Reads the zone of Universal Time, as its letter or as its offset. -/
def zone : Reader Unit := do
  if ← found 'Z' then return ()
  else mark ['+', '0', '0', ':', '0', '0']

/-- Reads a `DateTime` in the form of ISO 8601 and RFC 3339. -/
def dateTime : Reader DateTime := do
  let date ← date
  mark ['T']
  let clock ← clock
  let millisecond ← fraction
  zone
  return ⟨date, clock, millisecond⟩

/-- The weekdays in the classic form. -/
def weekdays : List String :=
  ["Mon", "Tue", "Wed", "Thu", "Fri", "Sat", "Sun"]

/-- The months in the classic form. -/
def months : List String :=
  ["Jan", "Feb", "Mar", "Apr", "May", "Jun", "Jul", "Aug", "Sep", "Oct", "Nov", "Dec"]

/-- Reads one of the `words` of three letters, as its place among them. -/
def place (words : List String) : Reader Nat := fun text =>
  (words.findIdx? fun word => word.toList = text.take 3).map fun i => (i, text.drop 3)

/-- Reads a weekday, where Monday has the number zero, a date and a time of day in the classic
form. -/
def classic : Reader (Nat × Date × Clock) := do
  let weekday ← place weekdays
  mark [' ']
  let month ← place months
  mark [' ']
  let day ← digits 2
  mark [' ']
  let clock ← clock
  mark [' ', 'U', 'T', 'C', ' ']
  let year ← digits 4
  let date : Date := ⟨year, month + 1, day⟩
  if date.Exists then return (weekday, date, clock) else failure

theorem date_append {d : Date} (hyear : d.year ≤ 9999) (h : d.Exists) (rest : List Char) :
  date.run (dateText d ++ rest) = some (d, rest)
  := by
  have hlt := date_lt hyear h
  have hvalue : max d.year 0 = d.year := Int.max_eq_left h.year_nonneg
  simp [date, dateText, digits_zeroPadded, hlt, hvalue, h]

theorem clock_append {c : Clock} (h : c.Exists) (rest : List Char) :
  clock.run (clockText c ++ rest) = some (c, rest)
  := by
  simp [clock, clockText, digits_zeroPadded, clock_lt h, h]

/-- The `decimalPlaces`, of which there are at least as many as those of milliseconds, are cut to
these. -/
theorem fraction_decimalPlaces {count nanoseconds : Nat} (hcount : count ∈ [3, 6, 9])
    (hlt : nanoseconds < 1000000000) {rest : List Char}
    (hrest : ∀ c, rest.head? = some c → c.isDigit = false) :
  fraction.run ('.' :: (decimalPlaces count nanoseconds ++ rest))
    = some (nanoseconds / 1000000, rest)
  := by
  have hbounds : 0 < count ∧ nanoseconds / Nat.pow 10 (9 - count) < Nat.pow 10 count
      ∧ nanoseconds / Nat.pow 10 (9 - count) * 1000 / Nat.pow 10 count
        = nanoseconds / 1000000 := by
    simp only [List.mem_cons, List.not_mem_nil, or_false] at hcount
    obtain rfl | rfl | rfl := hcount
    · show 0 < 3 ∧ nanoseconds / 1000000 < 1000
        ∧ nanoseconds / 1000000 * 1000 / 1000 = nanoseconds / 1000000
      omega
    · show 0 < 6 ∧ nanoseconds / 1000 < 1000000
        ∧ nanoseconds / 1000 * 1000 / 1000000 = nanoseconds / 1000000
      omega
    · show 0 < 9 ∧ nanoseconds / 1 < 1000000000
        ∧ nanoseconds / 1 * 1000 / 1000000000 = nanoseconds / 1000000
      omega
  obtain ⟨hpos, hbound, hcut⟩ := hbounds
  have hlength : (decimalPlaces count nanoseconds).length = count :=
    length_zeroPadded hpos hbound
  have hne : decimalPlaces count nanoseconds ≠ [] := by
    rw [← List.length_pos_iff, hlength]
    exact hpos
  have hvalue : Nat.ofDigitChars 10 (decimalPlaces count nanoseconds) 0
      = nanoseconds / Nat.pow 10 (9 - count) :=
    ofDigitChars_zeroPadded _ _
  have hread : fraction.run ('.' :: (decimalPlaces count nanoseconds ++ rest))
      = some (Nat.ofDigitChars 10 (decimalPlaces count nanoseconds) 0 * 1000
        / Nat.pow 10 (decimalPlaces count nanoseconds).length, rest) := by
    have hdigits := allDigits_append hne (fun _ => isDigit_of_mem_zeroPadded) hrest
    simp [fraction, hdigits]
  rw [hread, hvalue, hlength, hcut]

theorem fraction_shortFraction {nanoseconds : Nat} (hlt : nanoseconds < 1000000000)
    {rest : List Char} (hpoint : rest.head? ≠ some '.')
    (hrest : ∀ c, rest.head? = some c → c.isDigit = false) :
  fraction.run (shortFraction nanoseconds ++ rest) = some (nanoseconds / 1000000, rest)
  := by
  unfold shortFraction
  split
  next hzero =>
    simp [fraction, found_of_ne hpoint, hzero]
  · split
    · exact fraction_decimalPlaces (by decide) hlt hrest
    · split
      · exact fraction_decimalPlaces (by decide) hlt hrest
      · exact fraction_decimalPlaces (by decide) hlt hrest

/-- A date, a time of day, a fraction of a second and the zone are read one after another by
`dateTime`. -/
theorem dateTime_append {d : Date} {c : Clock} {millisecond : Nat} {places letters : List Char}
    (hyear : d.year ≤ 9999) (hdate : d.Exists) (hclock : c.Exists)
    (hplaces : fraction.run (places ++ letters) = some (millisecond, letters))
    (hletters : zone.run letters = some ((), [])) :
  dateTime.run (dateText d ++ 'T' :: (clockText c ++ (places ++ letters)))
    = some (⟨d, c, millisecond⟩, [])
  := by
  simp [dateTime, date_append hyear hdate, clock_append hclock, hplaces, hletters]

theorem place_append {words : List String} {cs : List Char} {i : Nat} (hlength : cs.length = 3)
    (h : (words.findIdx? fun word => word.toList = cs) = some i) (rest : List Char) :
  (place words).run (cs ++ rest) = some (i, rest)
  := by
  simp [StateT.run, place, List.take_left' hlength, List.drop_left' hlength, h]

/-- A weekday, a date and a time of day are read in the order of the form `classic`. -/
theorem classic_append {d : Date} {c : Clock} {weekday : Nat} {weekdayText monthText : List Char}
    (hyear : d.year ≤ 9999) (hdate : d.Exists) (hclock : c.Exists)
    (hweekday : ∀ rest, (place weekdays).run (weekdayText ++ rest) = some (weekday, rest))
    (hmonth : ∀ rest, (place months).run (monthText ++ rest) = some (d.month - 1, rest)) :
  classic.run (weekdayText ++ ' ' :: (monthText ++ ' ' :: (zeroPadded 2 d.day ++ ' ' :: (clockText c
      ++ ([' ', 'U', 'T', 'C', ' '] ++ zeroPadded 4 d.year.toNat)))))
    = some ((weekday, d, c), [])
  := by
  obtain ⟨hyear, -, hday⟩ := date_lt hyear hdate
  have hread : (digits 4).run (zeroPadded 4 d.year.toNat) = some (d.year.toNat, []) := by
    have h := digits_zeroPadded (by decide) hyear []
    rwa [List.append_nil] at h
  have hmark : (mark [' ', 'U', 'T', 'C', ' ']).run
      (' ' :: 'U' :: 'T' :: 'C' :: ' ' :: zeroPadded 4 d.year.toNat)
        = some ((), zeroPadded 4 d.year.toNat) :=
    mark_append _ _
  have hvalue : max d.year 0 = d.year := Int.max_eq_left hdate.year_nonneg
  have hnext : d.month - 1 + 1 = d.month := Nat.sub_add_cancel hdate.one_le_month
  simp [classic, hweekday, hmonth, digits_zeroPadded, hday, clock_append hclock, hmark, hread,
    hvalue, hnext, hdate]

end Reader

end LogRendering.Timestamp
