/-
**A point in time and its written form determine each other.**

A timestamp within the range of the calendar has a date and a time of day, from which it is got
back.  The others are written as the bare count.  No two timestamps are written alike: the parts of
a date are digits that end at a mark, leading zeros do not change what digits denote, and no date
ends as a bare count does.

Main definitions:

* `Timestamp.firstMoment`, `Timestamp.lastMoment` — the ends of the range.

Main results:

* `Calendar.DateTime.toText_inj` — different moments are written differently;
* `Timestamp.toDateTime?_eq` — which timestamps have a date, and which date;
* `Timestamp.written_unambiguously` — **timestamps, dates and written forms**.
-/

import RevisionStore.Proofs.Calendar
import RevisionStore.Proofs.Decimal
import RevisionStore.Timestamp

set_option autoImplicit false

namespace RevisionStore

namespace Calendar

/-! ### Digits up to a mark -/

theorem toList_padded (width n : Nat) : (padded width n).toList =
    List.replicate (width - (Nat.toDigits 10 n).length) '0' ++ Nat.toDigits 10 n := by
  simp [padded]

theorem isDigit_of_mem_padded {width n : Nat} {c : Char} (mem : c ∈ (padded width n).toList) :
    c.isDigit = true := by
  rw [toList_padded, List.mem_append] at mem
  rcases mem with zero | digit
  · rw [List.eq_of_mem_replicate zero]
    rfl
  · exact Nat.isDigit_of_mem_toDigits (by decide) (by decide) digit

theorem padded_ne_nil (width n : Nat) : (padded width n).toList ≠ [] := by
  simp [toList_padded, Nat.toDigits_ne_nil]

/-- Zeros in front do not change the number. -/
theorem padded_inj {width m n : Nat} :
    (padded width m).toList = (padded width n).toList ↔ m = n := by
  refine ⟨fun same => ?_, fun same => by rw [same]⟩
  have value := congrArg (Nat.ofDigitChars 10 · 0) same
  simpa [toList_padded, Decimal.ofDigitChars_replicate_zero_append] using value

/-- A padded number ends where something else begins. -/
theorem padded_cut {width m n : Nat} {rest rest' : List Char} {mark mark' : Char}
    (stop : mark.isDigit = false) (stop' : mark'.isDigit = false)
    (same : (padded width m).toList ++ mark :: rest = (padded width n).toList ++ mark' :: rest') :
    m = n ∧ mark = mark' ∧ rest = rest' := by
  obtain ⟨digits, marks⟩ := Decimal.digits_cut (fun _ => isDigit_of_mem_padded)
    (fun _ => isDigit_of_mem_padded) stop stop' same
  exact ⟨padded_inj.1 digits, marks⟩

/-! ### Years -/

/-- A year is a padded number, with a sign outside 0 to 9999. -/
theorem toList_yearText_cases (year : Int) :
    (0 ≤ year ∧ (yearText year).toList = (padded 4 year.natAbs).toList) ∨
      (year < 0 ∧ (yearText year).toList = '-' :: (padded 4 year.natAbs).toList) ∨
      (0 ≤ year ∧ (yearText year).toList = '+' :: (padded 4 year.natAbs).toList) := by
  unfold yearText
  split_ifs with usual negative
  · have same : year.toNat = year.natAbs := by omega
    exact .inl ⟨usual.1, by rw [same]⟩
  · exact .inr (.inl ⟨negative, by simp⟩)
  · exact .inr (.inr ⟨by omega, by simp⟩)

/-- A year ends at the mark after it. -/
theorem yearText_cut {year later : Int} {rest rest' : List Char}
    (same : (yearText year).toList ++ '-' :: rest = (yearText later).toList ++ '-' :: rest') :
    year = later ∧ rest = rest' := by
  have signed : ∀ {sign : Char} {n : Nat} {rest rest' : List Char}, sign.isDigit = false →
      (padded 4 n).toList ++ '-' :: rest ≠ sign :: rest' := by
    intro sign n rest rest' stop same
    have cut := @Decimal.digits_cut _ [] _ _ _ _ (fun _ => isDigit_of_mem_padded) (by simp)
      (by decide) stop same
    exact padded_ne_nil 4 n cut.1
  rcases toList_yearText_cases year with ⟨range, text⟩ | ⟨range, text⟩ | ⟨range, text⟩ <;>
    rcases toList_yearText_cases later with ⟨range', text'⟩ | ⟨range', text'⟩ | ⟨range', text'⟩ <;>
    rw [text, text'] at same
  -- Neither year has a sign, or only the second.
  · obtain ⟨number, -, rests⟩ := padded_cut rfl rfl same
    exact ⟨by omega, rests⟩
  · exact absurd same (signed rfl)
  · exact absurd same (signed rfl)
  -- The first year is negative.
  · exact absurd same.symm (signed rfl)
  · obtain ⟨number, -, rests⟩ := padded_cut rfl rfl (List.cons.inj same).2
    exact ⟨by omega, rests⟩
  · cases (List.cons.inj same).1
  -- The first year is beyond 9999.
  · exact absurd same.symm (signed rfl)
  · cases (List.cons.inj same).1
  · obtain ⟨number, -, rests⟩ := padded_cut rfl rfl (List.cons.inj same).2
    exact ⟨by omega, rests⟩

/-! ### Moments -/

/-- What follows the seconds: the milliseconds where there are any, and the zone. -/
def afterSeconds (millisecond : Int) : List Char :=
  if millisecond = 0 then '+' :: "00:00".toList
  else '.' :: ((padded 3 millisecond.toNat).toList ++ '+' :: "00:00".toList)

/-- The seconds end where the milliseconds or the zone begin. -/
theorem afterSeconds_cut {ms ms' : Int} {second second' : Nat} (nonneg : 0 ≤ ms) (nonneg' : 0 ≤ ms')
    (same : (padded 2 second).toList ++ afterSeconds ms =
      (padded 2 second').toList ++ afterSeconds ms') : second = second' ∧ ms = ms' := by
  unfold afterSeconds at same
  split_ifs at same with none none' none'
  · exact ⟨(padded_cut rfl rfl same).1, by rw [none, none']⟩
  · cases (padded_cut rfl rfl same).2.1
  · cases (padded_cut rfl rfl same).2.1
  · obtain ⟨seconds, -, rests⟩ := padded_cut rfl rfl same
    have := (padded_cut rfl rfl rests).1
    exact ⟨seconds, by omega⟩

namespace DateTime

theorem toList_toText (moment : DateTime) : moment.toText.toList =
    (yearText moment.date.year).toList ++ '-' :: ((padded 2 moment.date.month.toNat).toList ++
      '-' :: ((padded 2 moment.date.day.toNat).toList ++
      'T' :: ((padded 2 moment.hour.toNat).toList ++
      ':' :: ((padded 2 moment.minute.toNat).toList ++
      ':' :: ((padded 2 moment.second.toNat).toList ++ afterSeconds moment.millisecond))))) := by
  unfold toText Date.toText afterSeconds
  split_ifs <;> simp

/-- **Different moments are written differently.** -/
theorem toText_inj {moment other : DateTime} (valid : moment.Valid) (valid' : other.Valid) :
    moment.toText = other.toText ↔ moment = other := by
  refine ⟨fun same => ?_, fun same => by rw [same]⟩
  replace same := congrArg String.toList same
  rw [toList_toText, toList_toText] at same
  obtain ⟨year, same⟩ := yearText_cut same
  obtain ⟨month, -, same⟩ := padded_cut rfl rfl same
  obtain ⟨day, -, same⟩ := padded_cut rfl rfl same
  obtain ⟨hour, -, same⟩ := padded_cut rfl rfl same
  obtain ⟨minute, -, same⟩ := padded_cut rfl rfl same
  obtain ⟨second, millisecond⟩ :=
    afterSeconds_cut valid.millisecond.1 valid'.millisecond.1 same
  -- None of the numbers is negative, so that the digits determine each of them.
  have toNat_inj : ∀ {a b : Int}, 0 ≤ a → 0 ≤ b → a.toNat = b.toNat → a = b := by omega
  have date : moment.date = other.date := by
    have months := toNat_inj (Int.le_trans (by decide) valid.date.one_le_month)
      (Int.le_trans (by decide) valid'.date.one_le_month) month
    have days := toNat_inj (Int.le_trans (by decide) valid.date.one_le_day)
      (Int.le_trans (by decide) valid'.date.one_le_day) day
    exact (Date.mk.injEq ..).mpr ⟨year, months, days⟩
  exact (DateTime.mk.injEq ..).mpr ⟨date, toNat_inj valid.hour.1 valid'.hour.1 hour,
    toNat_inj valid.minute.1 valid'.minute.1 minute,
    toNat_inj valid.second.1 valid'.second.1 second, millisecond⟩

end DateTime

end Calendar

/-! ### Timestamps -/

namespace Timestamp

open Calendar

/-- The first moment whose date has a written form. -/
def firstMoment : DateTime := ⟨⟨firstYear, 1, 1⟩, 0, 0, 0, 0⟩

/-- The last moment whose date has a written form. -/
def lastMoment : DateTime := ⟨⟨lastYear, 12, 31⟩, 23, 59, 59, 999⟩

/-- The timestamp lies between the first and the last moment. -/
def InRange (t : Timestamp) : Prop :=
  firstMoment.toMillis ≤ t.millis.toInt ∧ t.millis.toInt ≤ lastMoment.toMillis

/-- A timestamp lies in the range exactly if the year of its date does. -/
theorem inRange_iff {t : Timestamp} : t.InRange ↔
    firstYear ≤ (DateTime.ofMillis t.millis.toInt).date.year ∧
      (DateTime.ofMillis t.millis.toInt).date.year ≤ lastYear := by
  have first : firstMoment.toMillis = Date.toDays ⟨firstYear, 1, 1⟩ * millisPerDay := by decide
  have last : lastMoment.toMillis + 1 = Date.toDays ⟨lastYear + 1, 1, 1⟩ * millisPerDay := by decide
  have year : (DateTime.ofMillis t.millis.toInt).date =
      Date.ofDays (t.millis.toInt / millisPerDay) := rfl
  rw [InRange, year, ← Int.lt_add_one_iff (b := lastYear), ← Int.not_le, Date.le_year_iff,
    Date.le_year_iff, Int.le_ediv_iff_mul_le (by decide), Int.le_ediv_iff_mul_le (by decide),
    ← first, ← last]
  omega

/-- **Which timestamps have a date, and which date that is.** -/
theorem toDateTime?_of_inRange {t : Timestamp} (within : t.InRange) :
    t.toDateTime? = some (DateTime.ofMillis t.millis.toInt) := if_pos (inRange_iff.1 within)

theorem toDateTime?_of_not_inRange {t : Timestamp} (outside : ¬ t.InRange) : t.toDateTime? = none :=
  if_neg (mt inRange_iff.2 outside)

/-- **The timestamp is got back from its date.** -/
theorem ofDateTime_ofMillis (t : Timestamp) :
    ofDateTime (DateTime.ofMillis t.millis.toInt) = t := by
  rw [ofDateTime, DateTime.toMillis_ofMillis, Int64.ofInt_toInt]

theorem toText_of_inRange {t : Timestamp} (within : t.InRange) :
    t.toText = (DateTime.ofMillis t.millis.toInt).toText := by
  rw [toText, toDateTime?_of_inRange within]

theorem toText_of_not_inRange {t : Timestamp} (outside : ¬ t.InRange) :
    t.toText = toString t.millis.toInt ++ "ms" := by
  rw [toText, toDateTime?_of_not_inRange outside]

/-- The text of a moment is not a bare count. -/
theorem toText_ne_count (moment : DateTime) (millis : Int) :
    moment.toText ≠ toString millis ++ "ms" := by
  intro same
  have ends := congrArg (fun text : String => text.toList.getLast?) same
  have zone : "+00:00".toList.getLast? = some '0' := by decide
  have unit : "ms".toList.getLast? = some 's' := by decide
  simp only [DateTime.toText, String.toList_append, List.getLast?_append, zone, unit,
    Option.some_or] at ends
  exact absurd ends (by decide)

/-- **Different timestamps are written differently.** -/
theorem toText_inj {t u : Timestamp} : t.toText = u.toText ↔ t = u := by
  refine ⟨fun same => ?_, fun same => by rw [same]⟩
  by_cases within : t.InRange <;> by_cases within' : u.InRange
  · rw [toText_of_inRange within, toText_of_inRange within',
      DateTime.toText_inj (DateTime.valid_ofMillis _) (DateTime.valid_ofMillis _)] at same
    rw [← ofDateTime_ofMillis t, same, ofDateTime_ofMillis]
  · rw [toText_of_inRange within, toText_of_not_inRange within'] at same
    exact absurd same (toText_ne_count _ _)
  · rw [toText_of_not_inRange within, toText_of_inRange within'] at same
    exact absurd same.symm (toText_ne_count _ _)
  · rw [toText_of_not_inRange within, toText_of_not_inRange within', String.append_left_inj,
      Decimal.toString_int_inj, Int64.toInt_inj] at same
    exact congrArg Timestamp.mk same

/-- **Timestamps, dates and written forms.**  Days are counted from 1970-01-01 through the dates of
the Gregorian calendar, in both directions.  A timestamp from the first moment of the year -262143
to the last one of the year 262142 has a date that there is, with a time of day, from which the
timestamp is got back and as which it is written; another timestamp has none, and is written as the
bare count.  No two timestamps are written alike. -/
theorem written_unambiguously :
    (Date.ofDays 0 = ⟨1970, 1, 1⟩ ∧ ∀ days, Date.ofDays (days + 1) = (Date.ofDays days).next) ∧
    (∀ t : Timestamp, t.InRange → ∃ moment, t.toDateTime? = some moment ∧ moment.Valid ∧
      moment = DateTime.ofMillis t.millis.toInt ∧ ofDateTime moment = t ∧
      t.toText = moment.toText) ∧
    (∀ t : Timestamp, ¬ t.InRange →
      t.toDateTime? = none ∧ t.toText = toString t.millis.toInt ++ "ms") ∧
    ∀ t u : Timestamp, t.toText = u.toText ↔ t = u :=
  ⟨⟨Date.ofDays_zero, Date.ofDays_succ⟩,
    fun t within => ⟨_, toDateTime?_of_inRange within, DateTime.valid_ofMillis _, rfl,
      ofDateTime_ofMillis t, toText_of_inRange within⟩,
    fun _ outside => ⟨toDateTime?_of_not_inRange outside, toText_of_not_inRange outside⟩,
    fun _ _ => toText_inj⟩

/-- The last timestamp that has a date, and the next one. -/
theorem written_unambiguously_last :
    (⟨8210266876799999⟩ : Timestamp).toText = "+262142-12-31T23:59:59.999+00:00" ∧
      (⟨8210266876800000⟩ : Timestamp).toText = "8210266876800000ms" := by
  have within : (⟨8210266876799999⟩ : Timestamp).InRange := by
    unfold InRange
    decide +kernel
  have outside : ¬ (⟨8210266876800000⟩ : Timestamp).InRange := by
    unfold InRange
    decide +kernel
  obtain ⟨-, inside, beyond, -⟩ := written_unambiguously
  obtain ⟨moment, -, -, rfl, -, text⟩ := inside _ within
  refine ⟨text.trans (by decide +kernel), (beyond _ outside).2.trans (by decide +kernel)⟩

end Timestamp

end RevisionStore
