import LogRendering.Calendar.Date

/-!
# Days counted

The days up to a date of the years from zero on, counted month by month with the rule of leap
years, and the weekday and the number of the date by this count.  The date of a day exists, and
its number is that of the day.
-/

namespace LogRendering.Calendar

/-! ### Counting days -/

/-- The year has a leap day: it is divisible by four, and not by a hundred unless by four
hundred. -/
def IsLeapYear (year : Nat) : Prop :=
  year % 4 = 0 ∧ (year % 100 = 0 → year % 400 = 0)

instance (year : Nat) : Decidable (IsLeapYear year) :=
  inferInstanceAs (Decidable (_ ∧ (_ → _)))

/-- The days of `month` of a year, where the first month has the number one. -/
def monthLength (year month : Nat) : Nat :=
  if month = 2 then if IsLeapYear year then 29 else 28
  else if month ∈ [4, 6, 9, 11] then 30 else 31

/-- The days of the first `count` months of a year. -/
def daysOfMonths (year : Nat) : Nat → Nat
  | 0 => 0
  | count + 1 => daysOfMonths year count + monthLength year (count + 1)

/-- The days of the first `count` years from the year zero on. -/
def daysOfYears : Nat → Nat
  | 0 => 0
  | count + 1 => daysOfYears count + daysOfMonths count 12

namespace Date

/-- The date `d` is one of the calendar, in one of the years from zero on. -/
structure Exists (d : Date) : Prop where
  year_nonneg : 0 ≤ d.year
  one_le_month : 1 ≤ d.month
  month_le : d.month ≤ 12
  one_le_day : 1 ≤ d.day
  day_le : d.day ≤ monthLength d.year.toNat d.month

instance (d : Date) : Decidable d.Exists :=
  decidable_of_iff
    (0 ≤ d.year ∧ 1 ≤ d.month ∧ d.month ≤ 12 ∧ 1 ≤ d.day
      ∧ d.day ≤ monthLength d.year.toNat d.month)
    ⟨fun ⟨hyear, hfirst, hlast, hday, hlength⟩ => ⟨hyear, hfirst, hlast, hday, hlength⟩,
      fun ⟨hyear, hfirst, hlast, hday, hlength⟩ => ⟨hyear, hfirst, hlast, hday, hlength⟩⟩

/-- The days from the first day of the year zero up to, but not including, the date `d`. -/
def daysBefore (d : Date) : Nat :=
  daysOfYears d.year.toNat + daysOfMonths d.year.toNat (d.month - 1) + (d.day - 1)

/-- The days from the first day of the year 1970 to the date `d`. -/
def number (d : Date) : Int :=
  d.daysBefore - daysOfYears 1970

/-- The weekday of the date `d`, where Monday has the number zero.  The year zero began on a
Saturday. -/
def weekday (d : Date) : Nat :=
  (d.daysBefore + 5) % 7

end Date

/-! ### Years -/

theorem daysOfMonths_twelve (year : Nat) :
  daysOfMonths year 12 = if IsLeapYear year then 366 else 365
  := by
  by_cases h : IsLeapYear year
  · simp [daysOfMonths, monthLength, h]
  · simp [daysOfMonths, monthLength, h]

theorem monthLength_le (year month : Nat) :
  monthLength year month ≤ 31
  := by
  unfold monthLength
  split
  · split
    · decide
    · decide
  · split
    · decide
    · decide

theorem isLeap_iff (year : Nat) :
  isLeap year = true ↔ IsLeapYear year
  := by
  simp only [isLeap, IsLeapYear, ne_eq, Bool.and_eq_true, Bool.or_eq_true, decide_eq_true_eq]
  omega

/-- The count `n / k` of the multiples of `k` grows at a multiple. -/
theorem ediv_eq_ediv_pred (n : Int) {k : Int} (h : 0 < k) :
  n / k = (n - 1) / k + if n % k = 0 then 1 else 0
  := by
  have hn := Int.mul_ediv_add_emod n k
  have hlt := Int.emod_lt_of_pos n h
  have hnonneg := Int.emod_nonneg n (Int.ne_of_gt h)
  split
  next hzero =>
    have hpred := (Int.ediv_emod_unique (a := n - 1) (r := k - 1) (q := n / k - 1) h).mpr
      ⟨by rw [Int.mul_sub]; omega, by omega, by omega⟩
    omega
  next hzero =>
    have hpred := (Int.ediv_emod_unique (a := n - 1) (r := n % k - 1) (q := n / k) h).mpr
      ⟨by omega, by omega, by omega⟩
    omega

/-- A year begins after `daysOfYears`, the days of the years before it. -/
theorem firstDay_eq (year : Nat) :
  firstDay year = daysOfYears year - 719528
  := by
  induction year with
  | zero => decide
  | succ year ih =>
      have hfour := ediv_eq_ediv_pred year (k := 4) (by decide)
      have hhundred := ediv_eq_ediv_pred year (k := 100) (by decide)
      have hfour_hundred := ediv_eq_ediv_pred year (k := 400) (by decide)
      have hpred : ((year + 1 : Nat) : Int) - 1 = year := by omega
      rw [daysOfYears, daysOfMonths_twelve]
      unfold firstDay leapYearsBefore at ih ⊢
      rw [hpred, hfour, hhundred, hfour_hundred]
      by_cases hleap : IsLeapYear year
      · rw [if_pos hleap]
        unfold IsLeapYear at hleap
        omega
      · rw [if_neg hleap]
        unfold IsLeapYear at hleap
        omega

theorem daysOfYears_epoch :
  (daysOfYears 1970 : Int) = 719528
  := by
  have hepoch := firstDay_eq 1970
  have hzero : firstDay (1970 : Nat) = 0 := by decide
  omega

/-- Years have 146097 / 400 days in the mean, and the beginning of a year is not far from where
it would be if all had as many. -/
theorem firstDay_bounds (year : Int) :
  146097 * (year - 1970) - 506 ≤ 400 * firstDay year
    ∧ 400 * firstDay year ≤ 146097 * (year - 1970) + 589
  := by
  unfold firstDay leapYearsBefore
  omega

/-- A day lies in the year `yearOf` it. -/
theorem yearOf_bounds (day : Int) :
  firstDay (yearOf day) ≤ day ∧ day < firstDay (yearOf day + 1)
  := by
  have hmean : 146097 * (day * 400 / 146097) ≤ day * 400
      ∧ day * 400 < 146097 * (day * 400 / 146097 + 1) := by
    omega
  unfold yearOf
  generalize day * 400 / 146097 = mean at hmean
  have hbefore := firstDay_bounds (1970 + mean - 1)
  have hafter := firstDay_bounds (1970 + mean + 1 + 1)
  dsimp only
  split
  next h =>
    rw [Int.sub_add_cancel]
    omega
  next h =>
    split
    next h' => omega
    next h' => omega

/-! ### Months -/

theorem monthLengths_eq (year : Nat) :
  monthLengths (isLeap year) = (List.range' 1 12).map (monthLength year)
  := by
  by_cases h : IsLeapYear year
  · rw [(isLeap_iff year).mpr h]
    simp [monthLengths, monthLength, h, List.range']
  · rw [Bool.eq_false_iff.mpr (mt (isLeap_iff year).mp h)]
    simp [monthLengths, monthLength, h, List.range']

/-- The month and the day that `monthAndDay` finds among the months after the first `passed` ones
have as many days of the year before them as were given. -/
theorem exists_monthAndDay (year passed count offset : Nat)
    (h : daysOfMonths year passed + offset < daysOfMonths year (passed + count)) :
  ∃ month day,
    monthAndDay (passed + 1) ((List.range' (passed + 1) count).map (monthLength year)) offset
        = (month, day)
      ∧ passed + 1 ≤ month ∧ month ≤ passed + count ∧ 1 ≤ day ∧ day ≤ monthLength year month
      ∧ daysOfMonths year (month - 1) + day = daysOfMonths year passed + offset + 1
  := by
  -- a month that is passed takes its days from `offset`, and the sum of both stays
  induction count generalizing passed offset with
  | zero => exact absurd h (Nat.not_lt.mpr (Nat.le_add_right _ _))
  | succ count ih =>
      rw [List.range'_succ, List.map_cons, monthAndDay]
      split
      next hlt =>
        refine ⟨passed + 1, offset + 1, rfl, Nat.le_refl _, by omega, by omega, hlt, ?_⟩
        rw [Nat.add_sub_cancel, Nat.add_assoc]
      next hge =>
        have hpassed : daysOfMonths year (passed + 1)
            = daysOfMonths year passed + monthLength year (passed + 1) := rfl
        have hoffset : daysOfMonths year (passed + 1) + (offset - monthLength year (passed + 1))
            = daysOfMonths year passed + offset := by
          omega
        obtain ⟨month, day, heq, hfirst, hlast, hday, hlength, hsum⟩ :=
          ih (passed + 1) (offset - monthLength year (passed + 1)) (by
            rw [hoffset, Nat.add_right_comm, Nat.add_assoc]
            exact h)
        refine ⟨month, day, heq, by omega, by omega, hday, hlength, ?_⟩
        rw [hsum, hoffset]

/-! ### Dates -/

/-- The date `dateOf day`, from the year zero on, is the one with as many days before it. -/
theorem exists_dateOf_eq {day : Int} (h : 0 ≤ (dateOf day).year) :
  ∃ year month dayOfMonth : Nat, dateOf day = ⟨year, month, dayOfMonth⟩
    ∧ 1 ≤ month ∧ month ≤ 12 ∧ 1 ≤ dayOfMonth ∧ dayOfMonth ≤ monthLength year month
    ∧ (daysOfYears year + daysOfMonths year (month - 1) + dayOfMonth : Int) = day + 719528 + 1
  := by
  obtain ⟨year, hyear⟩ : ∃ year : Nat, yearOf day = year := Int.eq_ofNat_of_zero_le h
  have hbounds := yearOf_bounds day
  rw [hyear] at hbounds
  have hstart := firstDay_eq year
  have hend : firstDay (year + 1) = (daysOfYears year + daysOfMonths year 12 : Nat) - 719528 :=
    firstDay_eq (year + 1)
  obtain ⟨offset, hoffset⟩ : ∃ offset : Nat, day - firstDay year = offset := by
    apply Int.eq_ofNat_of_zero_le
    omega
  have hordinal : ordinalOf day - 1 = offset := by
    rw [ordinalOf, hyear, hoffset]
    rfl
  have hlt : daysOfMonths year 0 + offset < daysOfMonths year (0 + 12) := by
    rw [daysOfMonths, Nat.zero_add, Nat.zero_add]
    omega
  obtain ⟨month, dayOfMonth, hfound, hfirst, hlast, hday, hlength, hsum⟩ :=
    exists_monthAndDay year 0 12 offset hlt
  refine ⟨year, month, dayOfMonth, ?_, hfirst, hlast, hday, hlength, ?_⟩
  · rw [dateOf, hordinal, hyear, monthLengths_eq, hfound]
  · rw [daysOfMonths] at hsum
    omega

theorem exists_dateOf {day : Int} (h : 0 ≤ (dateOf day).year) :
  (dateOf day).Exists
  := by
  obtain ⟨year, month, dayOfMonth, heq, hfirst, hlast, hday, hlength, -⟩ := exists_dateOf_eq h
  rw [heq]
  exact ⟨Int.natCast_nonneg year, hfirst, hlast, hday, hlength⟩

/-- The date `dateOf day` has the number of the day. -/
theorem number_dateOf {day : Int} (h : 0 ≤ (dateOf day).year) :
  (dateOf day).number = day
  := by
  obtain ⟨year, month, dayOfMonth, heq, -, -, hday, -, hsum⟩ := exists_dateOf_eq h
  rw [heq, Date.number, daysOfYears_epoch, Date.daysBefore, Int.toNat_natCast]
  dsimp only
  omega

/-- The date of a day has the weekday `weekdayOf` the day. -/
theorem weekday_dateOf {day : Int} (h : 0 ≤ (dateOf day).year) :
  (dateOf day).weekday = weekdayOf day
  := by
  have hnumber := number_dateOf h
  rw [Date.number, daysOfYears_epoch] at hnumber
  rw [Date.weekday, weekdayOf]
  omega

end LogRendering.Calendar
