import LogRendering.Proofs.Timestamp.Reading
import LogRendering.Timestamp.Format
import Mathlib.Tactic.Use

/-!
# The built-in formats agree

The texts of one instant in the four built-in formats, in the years of four digits, and what is
read from them.  All of them tell the same date and time of day: the classic form to the second,
with the weekday of the date, and the others to the millisecond.
-/

namespace LogRendering

open Calendar (Instant)
open Timestamp

namespace Calendar.Instant

/-- The year of `t` is one of 0 to 9999, and its nanoseconds are those of a second, or of this
and a leap second. -/
structure IsPlain (t : Instant) : Prop where
  year_nonneg : 0 ≤ t.date.year
  year_le : t.date.year ≤ 9999
  nanoseconds_lt : t.nanoseconds < 2000000000

/-- The time of day of `t`. -/
def clock (t : Instant) : Clock :=
  ⟨t.hour, t.minute, t.second⟩

/-- The date and the time of day of `t`, cut to milliseconds. -/
def toDateTime (t : Instant) : DateTime :=
  ⟨t.date, t.clock, t.fraction / 1000000⟩

variable {t : Instant}

theorem IsPlain.exists_date (h : t.IsPlain) :
  t.date.Exists
  := Calendar.exists_dateOf h.year_nonneg

theorem IsPlain.exists_clock (h : t.IsPlain) :
  t.clock.Exists
  := by
  have hnanoseconds := h.nanoseconds_lt
  constructor
  · show t.secondOfDay / 3600 < 24
    unfold secondOfDay
    omega
  · show t.secondOfDay / 60 % 60 < 60
    omega
  · show t.secondOfDay % 60 + t.nanoseconds / 1000000000 ≤ 60
    omega

theorem fraction_lt (t : Instant) :
  t.fraction < 1000000000
  := by
  unfold fraction
  omega

/-- The milliseconds of `t.toDateTime` are those of `t`. -/
theorem IsPlain.milliseconds_toDateTime (h : t.IsPlain) :
  t.toDateTime.milliseconds = t.milliseconds
  := by
  have hnumber : t.date.number = t.day := Calendar.number_dateOf h.year_nonneg
  simp only [DateTime.milliseconds, toDateTime, clock, hnumber]
  unfold milliseconds hour minute second fraction secondOfDay day
  omega

end Calendar.Instant

namespace Timestamp

/-! ### Written parts -/

theorem tensAndOnes_zero {n : Nat} (h : n < Nat.pow 10 2) :
  tensAndOnes .zero n = zeroPadded 2 n
  := by
  revert n
  decide

theorem yearText_zero {year : Nat} (h : year ≤ 9999) :
  yearText .zero year = zeroPadded 4 year
  := by
  unfold yearText
  split
  · rfl
  · have hsign : signOf false year = [] := if_neg (by omega)
    rw [if_pos (by omega)]
    simp [padded, hsign, zeroPadded]

/-- The numbers of an instant that `IsPlain` are written with zeros up to their fixed width. -/
theorem text_eq_zeroPadded {t : Instant} (h : t.IsPlain) :
  NumericField.text t .zero .year = zeroPadded 4 t.date.year.toNat
    ∧ NumericField.text t .zero .month = zeroPadded 2 t.date.month
    ∧ NumericField.text t .zero .day = zeroPadded 2 t.date.day
    ∧ NumericField.text t .zero .hour = zeroPadded 2 t.hour
    ∧ NumericField.text t .zero .minute = zeroPadded 2 t.minute
    ∧ NumericField.text t .zero .second = zeroPadded 2 t.second
  := by
  obtain ⟨-, hmonth, hday⟩ := date_lt h.year_le h.exists_date
  obtain ⟨hhour, hminute, hsecond⟩ := clock_lt h.exists_clock
  refine ⟨?_, tensAndOnes_zero hmonth, tensAndOnes_zero hday, tensAndOnes_zero hhour,
    tensAndOnes_zero hminute, tensAndOnes_zero hsecond⟩
  obtain ⟨year, hyear⟩ := Int.eq_ofNat_of_zero_le h.year_nonneg
  have hle := h.year_le
  show yearText .zero t.date.year = _
  rw [hyear] at hle ⊢
  apply yearText_zero
  omega

/-- The short name of the weekday of an instant is read as the weekday of its date. -/
theorem place_weekdayName {t : Instant} (h : t.IsPlain) (rest : List Char) :
  (Reader.place Reader.weekdays).run ((weekdayName t).take 3 ++ rest)
    = some (t.date.weekday, rest)
  := by
  have hnames : ∀ weekday < 7, ((weekdayNames.getD weekday "").toList.take 3).length = 3
      ∧ (Reader.weekdays.findIdx? fun word =>
          word.toList = (weekdayNames.getD weekday "").toList.take 3) = some weekday := by
    decide
  have hweekday : t.date.weekday = Calendar.weekdayOf t.day := Calendar.weekday_dateOf h.year_nonneg
  obtain ⟨hlength, hfound⟩ := hnames (Calendar.weekdayOf t.day) (by
    unfold Calendar.weekdayOf
    omega)
  rw [hweekday]
  exact Reader.place_append hlength hfound rest

/-- The short name of the month of an instant is read as the month. -/
theorem place_monthName {t : Instant} (h : t.IsPlain) (rest : List Char) :
  (Reader.place Reader.months).run ((monthName t).take 3 ++ rest)
    = some (t.date.month - 1, rest)
  := by
  have hnames : ∀ month < 12, ((monthNames.getD month "").toList.take 3).length = 3
      ∧ (Reader.months.findIdx? fun word =>
          word.toList = (monthNames.getD month "").toList.take 3) = some month := by
    decide
  have hlast := h.exists_date.month_le
  obtain ⟨hlength, hfound⟩ := hnames (t.date.month - 1) (by omega)
  exact Reader.place_append hlength hfound rest

end Timestamp

namespace TimestampFormat

/-! ### Written formats -/

variable {t : Instant}

theorem format_iso8601 (h : t.IsPlain) :
  iso8601.format t = String.ofList (dateText t.date ++ 'T' :: (clockText t.clock
    ++ (('.' :: decimalPlaces 3 t.fraction) ++ ['Z'])))
  := by
  have hitems : items iso8601Pattern = [.numeric .year .zero, .literal '-', .numeric .month .zero,
      .literal '-', .numeric .day .zero, .literal 'T', .numeric .hour .zero, .literal ':',
      .numeric .minute .zero, .literal ':', .numeric .second .zero, .fixed (.places 3 true),
      .literal 'Z'] := by
    decide
  simp [format, patternText?, hitems, itemsText?, Item.text?, FixedField.text,
    text_eq_zeroPadded h, dateText, clockText, Instant.clock]

theorem format_rfc3339 (h : t.IsPlain) :
  rfc3339.format t = String.ofList (dateText t.date ++ 'T' :: (clockText t.clock
    ++ (shortFraction t.fraction ++ ['+', '0', '0', ':', '0', '0'])))
  := by
  have hyear : yearText .zero t.date.year = zeroPadded 4 t.date.year.toNat :=
    (text_eq_zeroPadded h).1
  simp [format, rfc3339Text, hyear, dateText, clockText, Instant.clock]

theorem format_classic (h : t.IsPlain) :
  classic.format t = String.ofList ((weekdayName t).take 3 ++ ' ' :: ((monthName t).take 3
    ++ ' ' :: (zeroPadded 2 t.date.day ++ ' ' :: (clockText t.clock
    ++ ([' ', 'U', 'T', 'C', ' '] ++ zeroPadded 4 t.date.year.toNat)))))
  := by
  have hitems : items classicPattern = [.fixed .shortWeekday, .literal ' ', .fixed .shortMonth,
      .literal ' ', .numeric .day .zero, .literal ' ', .numeric .hour .zero, .literal ':',
      .numeric .minute .zero, .literal ':', .numeric .second .zero, .literal ' ', .literal 'U',
      .literal 'T', .literal 'C', .literal ' ', .numeric .year .zero] := by
    decide
  simp [format, classicText, patternText?, hitems, itemsText?, Item.text?, FixedField.text,
    text_eq_zeroPadded h, clockText, Instant.clock]

/-! ### Read formats -/

theorem length_format_iso8601 (h : t.IsPlain) :
  (iso8601.format t).length = 24
  := by
  have hdate := length_dateText h.year_le h.exists_date
  have hclock := length_clockText h.exists_clock
  have hplaces : (decimalPlaces 3 t.fraction).length = 3 := by
    apply length_zeroPadded (by decide)
    show t.fraction / 1000000 < 1000
    have hlt := t.fraction_lt
    omega
  rw [format_iso8601 h, String.length_ofList]
  simp [hdate, hclock, hplaces]

theorem read_iso8601 (h : t.IsPlain) :
  Reader.dateTime.readWhole? (iso8601.format t) = some t.toDateTime
  := by
  rw [format_iso8601 h]
  apply Reader.readWhole?_ofList
  apply Reader.dateTime_append h.year_le h.exists_date h.exists_clock
  · apply Reader.fraction_decimalPlaces (by decide) t.fraction_lt
    rintro _ ⟨⟩
    rfl
  · rfl

theorem read_rfc3339 (h : t.IsPlain) :
  Reader.dateTime.readWhole? (rfc3339.format t) = some t.toDateTime
  := by
  rw [format_rfc3339 h]
  apply Reader.readWhole?_ofList
  apply Reader.dateTime_append h.year_le h.exists_date h.exists_clock
  · apply Reader.fraction_shortFraction t.fraction_lt
    · decide
    · rintro _ ⟨⟩
      rfl
  · rfl

theorem read_unixMillis (t : Instant) :
  Reader.integer.readWhole? (unixMillis.format t) = some t.milliseconds
  := by
  apply Reader.readWhole?_ofList
  apply Reader.integer_integerDigits

theorem read_classic (h : t.IsPlain) :
  Reader.classic.readWhole? (classic.format t) = some (t.date.weekday, t.date, t.clock)
  := by
  rw [format_classic h]
  apply Reader.readWhole?_ofList
  apply Reader.classic_append h.year_le h.exists_date h.exists_clock
  · exact place_weekdayName h
  · exact place_monthName h

/-- The built-in formats agree on every instant that `IsPlain`, before the epoch and after it, in
leap seconds too.  One `DateTime` is read from the forms of ISO 8601, which has 24 characters,
and of RFC 3339, whose places beyond milliseconds are cut off.  Its milliseconds are the integer
of `unixMillis`, and its date, weekday and time of day are those of the form `classic`. -/
theorem formats_agree (h : t.IsPlain) :
  ∃ written : DateTime, (iso8601.format t).length = 24
    ∧ Reader.dateTime.readWhole? (iso8601.format t) = some written
    ∧ Reader.dateTime.readWhole? (rfc3339.format t) = some written
    ∧ Reader.integer.readWhole? (unixMillis.format t) = some written.milliseconds
    ∧ Reader.classic.readWhole? (classic.format t)
      = some (written.date.weekday, written.date, written.clock)
  := by
  use t.toDateTime
  rw [h.milliseconds_toDateTime]
  exact ⟨length_format_iso8601 h, read_iso8601 h, read_rfc3339 h, read_unixMillis t,
    read_classic h⟩

/-- The last millisecond of a leap second on the leap day of the year zero, long before the
epoch. -/
theorem formats_agree_leapDay :
  ∃ (t : Instant) (written : DateTime), t = ⟨-62162035201, 1999999999⟩ ∧ t.IsPlain
    ∧ iso8601.format t = "0000-02-29T23:59:60.999Z"
    ∧ rfc3339.format t = "0000-02-29T23:59:60.999999999+00:00"
    ∧ unixMillis.format t = "-62162035199001"
    ∧ classic.format t = "Tue Feb 29 23:59:60 UTC 0000"
    ∧ (iso8601.format t).length = 24
    ∧ Reader.dateTime.readWhole? (iso8601.format t) = some written
    ∧ Reader.dateTime.readWhole? (rfc3339.format t) = some written
    ∧ Reader.integer.readWhole? (unixMillis.format t) = some written.milliseconds
    ∧ Reader.classic.readWhole? (classic.format t)
      = some (written.date.weekday, written.date, written.clock)
  := by
  have hplain : Instant.IsPlain ⟨-62162035201, 1999999999⟩ :=
    ⟨by decide +kernel, by decide +kernel, by decide⟩
  obtain ⟨written, hagree⟩ := formats_agree hplain
  refine ⟨_, written, rfl, hplain, ?_, ?_, ?_, ?_, hagree⟩
  · decide +kernel
  · decide +kernel
  · decide +kernel
  · decide +kernel

end TimestampFormat

end LogRendering
