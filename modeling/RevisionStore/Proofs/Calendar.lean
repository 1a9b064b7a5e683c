/-
**The calendar is the Gregorian one, and its dates are counted without gaps.**

The count of days is taken apart by divisions that are chosen to come out right.  Here the rules of
the calendar are stated by themselves, as the lengths of the months and the date that comes next,
and the divisions are shown to follow them: day zero is 1970-01-01, and the date of every day is the
one after that of the day before, in years of either sign.

Main definitions:

* `Calendar.IsLeap`, `Calendar.monthLength`, `Calendar.Date.Valid`, `Calendar.Date.next` — the rules
  of the calendar;
* `Calendar.LiesIn` — where a day lies in the years that begin in March, which is how days are
  counted;
* `Calendar.DateTime.Valid` — a date and a time of day that there are.

Main results:

* `Calendar.Date.toDays_ofDays`, `Calendar.Date.ofDays_toDays` — **days and dates determine each
  other**;
* `Calendar.Date.ofDays_zero`, `Calendar.Date.ofDays_succ` — the first day, and the date that
  follows;
* `Calendar.Date.le_year_iff` — which days lie in a year or later;
* `Calendar.DateTime.toMillis_ofMillis` — the milliseconds of a moment.
-/

import RevisionStore.Calendar
import Mathlib.Tactic.IntervalCases
import Mathlib.Tactic.SplitIfs

set_option autoImplicit false

namespace RevisionStore.Calendar

/-! ### The rules of the calendar -/

/-- Every fourth year has a leap day, but not every hundredth, and yet every four hundredth. -/
def IsLeap (year : Int) : Prop := year % 4 = 0 ∧ (year % 100 ≠ 0 ∨ year % 400 = 0)

instance (year : Int) : Decidable (IsLeap year) :=
  inferInstanceAs (Decidable (year % 4 = 0 ∧ (year % 100 ≠ 0 ∨ year % 400 = 0)))

/-- How many days a month has. -/
def monthLength (year month : Int) : Int :=
  if month = 2 then if IsLeap year then 29 else 28
  else if month = 4 ∨ month = 6 ∨ month = 9 ∨ month = 11 then 30
  else 31

namespace Date

/-- A date that there is. -/
structure Valid (date : Date) : Prop where
  one_le_month : 1 ≤ date.month
  month_le : date.month ≤ 12
  one_le_day : 1 ≤ date.day
  day_le : date.day ≤ monthLength date.year date.month

/-- The date that comes next. -/
def next (date : Date) : Date :=
  if date.day < monthLength date.year date.month then { date with day := date.day + 1 }
  else if date.month < 12 then ⟨date.year, date.month + 1, 1⟩
  else ⟨date.year + 1, 1, 1⟩

end Date

/-! ### Years that begin in March -/

/-- The days from 0000-03-01 to the first of March of a year. -/
def marchStart (year : Int) : Int := 365 * year + year / 4 - year / 100 + year / 400

/-- The year of a cycle in which a day of the cycle lies. -/
def yearOfCycle (day : Int) : Int := (day - day / 1460 + day / 36524 - day / 146096) / 365

/-- The date of a day of a year that begins in March. -/
def fromMarch (year dayOfYear : Int) : Date :=
  let monthFromMarch := (5 * dayOfYear + 2) / 153
  let month := if monthFromMarch < 10 then monthFromMarch + 3 else monthFromMarch - 9
  ⟨year + (if month ≤ 2 then 1 else 0), month, dayOfYear - (153 * monthFromMarch + 2) / 5 + 1⟩

theorem marchStart_add_cycles (year cycles : Int) :
    marchStart (year + cycles * 400) = marchStart year + cycles * daysPerCycle := by
  unfold marchStart daysPerCycle
  omega

/-- The year that ends with February has a leap day exactly if the one in which it ends has. -/
theorem marchStart_succ (year : Int) :
    marchStart (year + 1) = marchStart year + (if IsLeap (year + 1) then 366 else 365) := by
  unfold marchStart IsLeap
  split_ifs <;> omega

theorem yearOfCycle_mono {day later : Int} (before : day ≤ later) :
    yearOfCycle day ≤ yearOfCycle later := by
  have counts : day - day / 1460 + day / 36524 - day / 146096 ≤
      later - later / 1460 + later / 36524 - later / 146096 := by omega
  exact Int.ediv_le_ediv (by decide) counts

/-- The first day of a year lies in that year. -/
theorem yearOfCycle_marchStart (year : Int) (first : 0 ≤ year) (last : year ≤ 399) :
    yearOfCycle (marchStart year) = year := by
  have leapDays : marchStart year / 1460 = year / 4 := by unfold marchStart; omega
  have centuries : marchStart year / 36524 = year / 100 := by unfold marchStart; omega
  have cycles : marchStart year / 146096 = 0 := by unfold marchStart; omega
  rw [yearOfCycle, leapDays, centuries, cycles, marchStart]
  omega

/-- The day before the first one of a year lies in the year before. -/
theorem yearOfCycle_marchStart_pred (year : Int) (first : 0 ≤ year) (last : year ≤ 398) :
    yearOfCycle (marchStart (year + 1) - 1) = year := by
  have leapDays : (marchStart (year + 1) - 1) / 1460 = (year + 1) / 4 := by unfold marchStart; omega
  have centuries : (marchStart (year + 1) - 1) / 36524 = year / 100 := by unfold marchStart; omega
  have cycles : (marchStart (year + 1) - 1) / 146096 = 0 := by unfold marchStart; omega
  rw [yearOfCycle, leapDays, centuries, cycles, marchStart]
  omega

/-- **The year of a cycle in which a day lies** begins on that day or before, and the next one
begins after it. -/
theorem yearOfCycle_spec {day : Int} (first : 0 ≤ day) (last : day < daysPerCycle) :
    (0 ≤ yearOfCycle day ∧ yearOfCycle day ≤ 399) ∧
      marchStart (yearOfCycle day) ≤ day ∧ day < marchStart (yearOfCycle day + 1) := by
  rw [daysPerCycle] at last
  have range : 0 ≤ yearOfCycle day ∧ yearOfCycle day ≤ 399 := by unfold yearOfCycle; omega
  refine ⟨range, ?_, ?_⟩
  · by_contra late
    rcases Int.lt_or_eq_of_le range.1 with positive | zero
    · -- The day would lie in the year before.
      have earlier := yearOfCycle_marchStart_pred (yearOfCycle day - 1) (by omega) (by omega)
      rw [Int.sub_add_cancel] at earlier
      have := yearOfCycle_mono (show day ≤ marchStart (yearOfCycle day) - 1 by omega)
      omega
    · rw [← zero] at late
      exact late first
  · by_contra late
    rcases Int.lt_or_eq_of_le range.2 with small | large
    · -- The day would lie in the year after.
      have later := yearOfCycle_marchStart (yearOfCycle day + 1) (by omega) (by omega)
      have := yearOfCycle_mono (Int.not_lt.1 late)
      omega
    · rw [large] at late
      exact late last

/-- A day lies in a year that begins in March, so many days after its first one. -/
structure LiesIn (days year dayOfYear : Int) : Prop where
  nonneg : 0 ≤ dayOfYear
  lt_next : marchStart year + dayOfYear < marchStart (year + 1)
  count : days + cycleOffset = marchStart year + dayOfYear

namespace LiesIn

variable {days year dayOfYear : Int}

theorem unique {year' dayOfYear' : Int} (h : LiesIn days year dayOfYear)
    (h' : LiesIn days year' dayOfYear') : year = year' ∧ dayOfYear = dayOfYear' := by
  have := h.nonneg
  have := h.lt_next
  have := h'.nonneg
  have := h'.lt_next
  have := h.count.symm.trans h'.count
  rcases lt_trichotomy year year' with before | rfl | after
  · have : marchStart (year + 1) ≤ marchStart year' := by unfold marchStart; omega
    omega
  · exact ⟨rfl, by omega⟩
  · have : marchStart (year' + 1) ≤ marchStart year := by unfold marchStart; omega
    omega

/-- A year has 365 days, and one more if it ends with a leap day. -/
theorem le (h : LiesIn days year dayOfYear) :
    dayOfYear ≤ if IsLeap (year + 1) then 365 else 364 := by
  have before := h.lt_next
  rw [marchStart_succ] at before
  split_ifs at before ⊢ <;> omega

end LiesIn

/-- **Every day lies in a year**, and its date is read off that. -/
theorem exists_liesIn (days : Int) :
    ∃ year dayOfYear, LiesIn days year dayOfYear ∧ Date.ofDays days = fromMarch year dayOfYear := by
  have split := Int.mul_ediv_add_emod (days + cycleOffset) daysPerCycle
  obtain ⟨range, start, stop⟩ := yearOfCycle_spec
    (Int.emod_nonneg (days + cycleOffset) (by decide : daysPerCycle ≠ 0))
    (Int.emod_lt_of_pos (days + cycleOffset) (by decide))
  have within : ∀ year, 0 ≤ year ∧ year ≤ 399 →
      marchStart year = 365 * year + year / 4 - year / 100 := by
    unfold marchStart
    omega
  refine ⟨yearOfCycle ((days + cycleOffset) % daysPerCycle) +
      (days + cycleOffset) / daysPerCycle * 400,
    (days + cycleOffset) % daysPerCycle -
      marchStart (yearOfCycle ((days + cycleOffset) % daysPerCycle)), ?_, ?_⟩
  · generalize (days + cycleOffset) % daysPerCycle = day at split range start stop
    generalize (days + cycleOffset) / daysPerCycle = cycles at split
    have begins := marchStart_add_cycles (yearOfCycle day) cycles
    have ends := marchStart_add_cycles (yearOfCycle day + 1) cycles
    rw [Int.add_right_comm] at ends
    rw [Int.mul_comm] at split
    exact ⟨by omega, by omega, by omega⟩
  · rw [within _ range]
    rfl

/-! ### Dates and days -/

/-- The count of a date, by the years that begin in March. -/
theorem toDays_eq (date : Date) : date.toDays + cycleOffset =
    marchStart (if date.month ≤ 2 then date.year - 1 else date.year) +
      ((153 * (if date.month ≤ 2 then date.month + 9 else date.month - 3) + 2) / 5 + date.day -
        1) := by
  unfold Date.toDays
  dsimp only
  generalize (if date.month ≤ 2 then date.year - 1 else date.year) = year
  unfold marchStart daysPerCycle
  omega

/-- A date read off the years that begin in March is counted as it lies there. -/
theorem toDays_fromMarch (year : Int) {dayOfYear : Int} (first : 0 ≤ dayOfYear)
    (last : dayOfYear ≤ 365) :
    (fromMarch year dayOfYear).toDays + cycleOffset = marchStart year + dayOfYear := by
  rw [toDays_eq]
  unfold fromMarch
  dsimp only
  by_cases early : (5 * dayOfYear + 2) / 153 < 10
  · have march : ¬ (5 * dayOfYear + 2) / 153 + 3 ≤ 2 := by omega
    simp only [early, march, if_true, if_false, Int.add_zero, Int.add_sub_cancel]
    omega
  · have january : (5 * dayOfYear + 2) / 153 - 9 ≤ 2 := by omega
    simp only [early, january, if_true, if_false, Int.add_sub_cancel, Int.sub_add_cancel]
    omega

/-- Such a date is one that there is. -/
theorem valid_fromMarch {days year dayOfYear : Int} (h : LiesIn days year dayOfYear) :
    (fromMarch year dayOfYear).Valid := by
  have first := h.nonneg
  have last := h.le
  have length : (fromMarch year dayOfYear).day ≤
      monthLength (fromMarch year dayOfYear).year (fromMarch year dayOfYear).month := by
    unfold fromMarch monthLength
    dsimp only
    obtain ⟨month, named⟩ : ∃ month, (5 * dayOfYear + 2) / 153 = month := ⟨_, rfl⟩
    have range : 0 ≤ month ∧ month ≤ 11 := by split_ifs at last <;> omega
    rw [named]
    obtain ⟨low, high⟩ := range
    interval_cases month <;> norm_num <;> split_ifs at last ⊢ <;> omega
  refine ⟨?_, ?_, ?_, length⟩
  all_goals
    unfold fromMarch
    dsimp only
    split_ifs at last ⊢ <;> omega

/-- The months from March on begin so many days after the first of March. -/
theorem monthFromMarch_eq_iff {dayOfYear month : Int} : (5 * dayOfYear + 2) / 153 = month ↔
    (153 * month + 2) / 5 ≤ dayOfYear ∧ dayOfYear < (153 * (month + 1) + 2) / 5 := by
  constructor
  · rintro rfl
    omega
  · omega

/-- A month ends before the next one begins. -/
theorem monthStart_add_monthLength_le (year : Int) {month : Int} (first : 1 ≤ month)
    (last : month ≤ 12) :
    (153 * (if month ≤ 2 then month + 9 else month - 3) + 2) / 5 + monthLength year month ≤
      (153 * ((if month ≤ 2 then month + 9 else month - 3) + 1) + 2) / 5 := by
  unfold monthLength
  interval_cases month <;> norm_num
  split_ifs <;> decide

/-- Every date that there is can be read off the years that begin in March. -/
theorem exists_fromMarch {date : Date} (valid : date.Valid) :
    ∃ year dayOfYear, LiesIn date.toDays year dayOfYear ∧ date = fromMarch year dayOfYear := by
  have count := toDays_eq date
  have fits := monthStart_add_monthLength_le date.year valid.one_le_month valid.month_le
  obtain ⟨year, month, day⟩ := date
  obtain ⟨january, december, first, last⟩ := valid
  dsimp only at count fits january december first last
  refine ⟨_, _, ⟨?_, ?_, count⟩, ?_⟩
  · split_ifs <;> omega
  · rw [marchStart_succ]
    unfold monthLength at last
    interval_cases month <;> norm_num at last ⊢ <;> split_ifs at last ⊢ <;> omega
  · obtain ⟨start, named⟩ : ∃ start, (if month ≤ 2 then month + 9 else month - 3) = start :=
      ⟨_, rfl⟩
    rw [named] at fits ⊢
    have found : (5 * ((153 * start + 2) / 5 + day - 1) + 2) / 153 = start :=
      monthFromMarch_eq_iff.2 ⟨by omega, by omega⟩
    unfold fromMarch
    rw [found]
    by_cases early : month ≤ 2
    · rw [if_pos early] at named
      have wrapped : ¬ start < 10 := by omega
      have back : start - 9 = month := by omega
      simp only [early, wrapped, back, if_true, if_false, Int.sub_add_cancel]
      congr 1
      omega
    · rw [if_neg early] at named
      have unwrapped : start < 10 := by omega
      have back : start + 3 = month := by omega
      simp only [early, unwrapped, back, if_true, if_false, Int.add_zero]
      congr 1
      omega

namespace Date

/-- **The count of the date of a day is that day.** -/
theorem toDays_ofDays (days : Int) : (ofDays days).toDays = days := by
  obtain ⟨year, dayOfYear, lies, same⟩ := exists_liesIn days
  have last : dayOfYear ≤ 365 := by
    have := lies.le
    split_ifs at this <;> omega
  have counted := toDays_fromMarch year lies.nonneg last
  have := lies.count
  rw [same]
  omega

theorem valid_ofDays (days : Int) : (ofDays days).Valid := by
  obtain ⟨year, dayOfYear, lies, same⟩ := exists_liesIn days
  rw [same]
  exact valid_fromMarch lies

/-- **Every date that there is is the date of its day.** -/
theorem ofDays_toDays {date : Date} (valid : date.Valid) : ofDays date.toDays = date := by
  obtain ⟨year, dayOfYear, lies, read⟩ := exists_fromMarch valid
  obtain ⟨year', dayOfYear', lies', same⟩ := exists_liesIn date.toDays
  obtain ⟨rfl, rfl⟩ := lies.unique lies'
  rw [same, ← read]

theorem ofDays_zero : ofDays 0 = ⟨1970, 1, 1⟩ := rfl

theorem monthLength_pos (year month : Int) : 28 ≤ monthLength year month := by
  unfold monthLength
  split_ifs <;> decide

theorem valid_first {year month : Int} (january : 1 ≤ month) (december : month ≤ 12) :
    (⟨year, month, 1⟩ : Date).Valid :=
  ⟨january, december, le_rfl, by have := monthLength_pos year month; dsimp only; omega⟩

theorem valid_next {date : Date} (valid : date.Valid) : date.next.Valid := by
  obtain ⟨january, december, first, last⟩ := valid
  unfold next
  split_ifs with inside early
  · exact ⟨january, december, by dsimp only; omega, inside⟩
  · exact valid_first (by omega) early
  · exact valid_first le_rfl (by decide)

/-- The date that comes next is counted one higher. -/
theorem toDays_next {date : Date} (valid : date.Valid) : date.next.toDays = date.toDays + 1 := by
  have here := toDays_eq date
  have february := marchStart_succ (date.year - 1)
  obtain ⟨year, month, day⟩ := date
  obtain ⟨january, december, first, last⟩ := valid
  unfold next
  dsimp only at *
  split_ifs with inside early
  · have there := toDays_eq ⟨year, month, day + 1⟩
    dsimp only at there
    omega
  · have there := toDays_eq ⟨year, month + 1, 1⟩
    have length : day = monthLength year month := by omega
    dsimp only at there
    rw [Int.sub_add_cancel] at february
    unfold monthLength at length
    generalize toDays _ = count at here there ⊢
    generalize toDays _ = later at there ⊢
    interval_cases month <;> norm_num at here there length <;>
      split_ifs at february length <;> omega
  · have there := toDays_eq ⟨year + 1, 1, 1⟩
    have final : month = 12 := by omega
    subst final
    norm_num [monthLength] at here there inside last
    omega

/-- **The date of the next day is the date that comes next.** -/
theorem ofDays_succ (days : Int) : ofDays (days + 1) = (ofDays days).next := by
  have valid := valid_ofDays days
  rw [← ofDays_toDays (valid_next valid), toDays_next valid, toDays_ofDays]

theorem toDays_newYear (year : Int) :
    toDays ⟨year, 1, 1⟩ + cycleOffset = marchStart (year - 1) + 306 := toDays_eq ⟨year, 1, 1⟩

/-- The days of a year are those from its first of January to before the next one. -/
theorem bounds_of_valid {date : Date} (valid : date.Valid) :
    toDays ⟨date.year, 1, 1⟩ ≤ date.toDays ∧ date.toDays < toDays ⟨date.year + 1, 1, 1⟩ := by
  have count := toDays_eq date
  have begins := toDays_newYear date.year
  have ends := toDays_newYear (date.year + 1)
  have fits := monthStart_add_monthLength_le date.year valid.one_le_month valid.month_le
  obtain ⟨january, december, first, last⟩ := valid
  rw [Int.add_sub_cancel] at ends
  have year := marchStart_succ (date.year - 1)
  rw [Int.sub_add_cancel] at year
  split_ifs at count fits year <;> omega

/-- **A day lies in a year or later exactly if it is not before the first of January.** -/
theorem le_year_iff {year days : Int} :
    year ≤ (ofDays days).year ↔ toDays ⟨year, 1, 1⟩ ≤ days := by
  obtain ⟨begins, ends⟩ := bounds_of_valid (valid_ofDays days)
  rw [toDays_ofDays] at begins ends
  have monotone : ∀ {year later : Int}, year ≤ later →
      toDays ⟨year, 1, 1⟩ ≤ toDays ⟨later, 1, 1⟩ := by
    intro year later before
    have start := toDays_newYear year
    have stop := toDays_newYear later
    unfold marchStart at start stop
    omega
  constructor
  · intro within
    have := monotone within
    omega
  · intro begun
    by_contra outside
    have := monotone (show (ofDays days).year + 1 ≤ year by omega)
    omega

end Date

/-! ### Moments -/

namespace DateTime

/-- A date that there is, and a time of day. -/
structure Valid (moment : DateTime) : Prop where
  date : moment.date.Valid
  hour : 0 ≤ moment.hour ∧ moment.hour < 24
  minute : 0 ≤ moment.minute ∧ moment.minute < 60
  second : 0 ≤ moment.second ∧ moment.second < 60
  millisecond : 0 ≤ moment.millisecond ∧ moment.millisecond < 1000

theorem valid_ofMillis (millis : Int) : (ofMillis millis).Valid where
  date := Date.valid_ofDays _
  hour := by
    unfold ofMillis millisPerDay
    dsimp only
    omega
  minute := ⟨Int.emod_nonneg _ (by decide), Int.emod_lt_of_pos _ (by decide)⟩
  second := ⟨Int.emod_nonneg _ (by decide), Int.emod_lt_of_pos _ (by decide)⟩
  millisecond := ⟨Int.emod_nonneg _ (by decide), Int.emod_lt_of_pos _ (by decide)⟩

/-- **The milliseconds of a moment are those that it was made of.** -/
theorem toMillis_ofMillis (millis : Int) : (ofMillis millis).toMillis = millis := by
  unfold toMillis ofMillis millisPerDay
  dsimp only
  rw [Date.toDays_ofDays]
  omega

end DateTime

end RevisionStore.Calendar
