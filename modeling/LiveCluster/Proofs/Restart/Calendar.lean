import LiveCluster.Instant
import Mathlib.Tactic.IntervalCases
import Mathlib.Tactic.Ring
import Mathlib.Tactic.SplitIfs

/-!
# The calendar

Dates are counted here as a calendar on the wall counts them: every fourth year is a leap
year, but of the full centuries only every fourth, each month has its length, and the days
before a date are those of the years and of the months before it. The closed forms of
`daysOfDate` and `dateOfDays` are this count and its inverse, shifted to the first of
January 1970.

Both work with years that begin in March, so that a leap day is the last of its year; the
proofs go through those years too.
-/

namespace LiveCluster.Calendar

/-! ## Years and months -/

/-- Every fourth year is a leap year, but of the full centuries only every fourth. -/
def IsLeap (year : Nat) : Prop :=
  year % 4 = 0 ∧ (year % 100 ≠ 0 ∨ year % 400 = 0)

instance : DecidablePred IsLeap := fun _ => inferInstanceAs (Decidable (_ ∧ _))

def yearLength (year : Nat) : Nat :=
  if IsLeap year then 366 else 365

def monthLength (year : Nat) : Nat → Nat
  | 2 => if IsLeap year then 29 else 28
  | 4 | 6 | 9 | 11 => 30
  | 1 | 3 | 5 | 7 | 8 | 10 | 12 => 31
  | _ => 0

/-- The days of the years before a year, from the year 0. -/
def daysBeforeYear : Nat → Nat
  | 0 => 0
  | year + 1 => daysBeforeYear year + yearLength year

/-- The days of the months before a month of a year. -/
def daysBeforeMonth (year : Nat) : Nat → Nat
  | 0 => 0
  | month + 1 => daysBeforeMonth year month + monthLength year month

/-- The month is one of the twelve and has the day. -/
structure IsDate (year month day : Nat) : Prop where
  month_pos : 1 ≤ month
  month_le : month ≤ 12
  day_pos : 1 ≤ day
  day_le : day ≤ monthLength year month

/-- The days from the first of January of the year 0 to a date. -/
def ordinal (year month day : Nat) : Nat :=
  daysBeforeYear year + daysBeforeMonth year month + (day - 1)

variable {year month day : Nat}

/-- The months of a year make up the year. -/
theorem daysBeforeMonth_thirteen (year : Nat) : daysBeforeMonth year 13 = yearLength year := by
  by_cases hleap : IsLeap year <;> simp [daysBeforeMonth, monthLength, yearLength, hleap]

theorem monthLength_pos (year : Nat) (h : 1 ≤ month) (h' : month ≤ 12) :
    1 ≤ monthLength year month := by
  by_cases hleap : IsLeap year <;> interval_cases month <;> simp [monthLength, hleap]

theorem monthLength_le_thirtyOne (year month : Nat) : monthLength year month ≤ 31 := by
  unfold monthLength
  split <;> (try split_ifs) <;> omega

theorem ordinal_newYear (year : Nat) : ordinal year 1 1 = daysBeforeYear year := by
  simp [ordinal, daysBeforeMonth, monthLength]

theorem daysBeforeYear_mono : Monotone daysBeforeYear :=
  monotone_nat_of_le_succ fun year => Nat.le_add_right _ (yearLength year)

theorem daysBeforeMonth_mono (year : Nat) : Monotone (daysBeforeMonth year) :=
  monotone_nat_of_le_succ fun month => Nat.le_add_right _ (monthLength year month)

theorem newYear_le_ordinal (year month day : Nat) :
    daysBeforeYear year ≤ ordinal year month day := by
  unfold ordinal
  omega

/-! ## Every day has a date -/

/-- No day is without a date. -/
theorem exists_date (n : Nat) :
    ∃ year month day, IsDate year month day ∧ ordinal year month day = n := by
  induction n with
  | zero => exact ⟨0, 1, 1, ⟨by decide, by decide, by decide, by decide⟩, rfl⟩
  | succ n ih =>
    obtain ⟨year, month, day, ⟨hmonth, hmonth', hday, hday'⟩, rfl⟩ := ih
    by_cases hlast : day < monthLength year month
    · refine ⟨year, month, day + 1, ⟨hmonth, hmonth', by omega, hlast⟩, ?_⟩
      unfold ordinal
      omega
    · by_cases hdecember : month < 12
      · refine ⟨year, month + 1, 1,
          ⟨by omega, by omega, le_refl _, monthLength_pos _ (by omega) (by omega)⟩, ?_⟩
        rw [ordinal, ordinal, daysBeforeMonth]
        omega
      · obtain rfl : month = 12 := by omega
        have hyear : daysBeforeMonth year 12 + monthLength year 12 = yearLength year :=
          daysBeforeMonth_thirteen year
        refine ⟨year + 1, 1, 1, ⟨by decide, by decide, by decide, by simp [monthLength]⟩, ?_⟩
        rw [ordinal_newYear, ordinal, daysBeforeYear]
        omega

/-! ## Dates in order -/

/-- One date comes before another on the wall: in an earlier year, or in an earlier month of the
same year, or on an earlier day of the same month. -/
def Earlier (year month day year' month' day' : Nat) : Prop :=
  year < year' ∨ year = year' ∧ (month < month' ∨ month = month' ∧ day < day')

variable {year' month' day' : Nat}

theorem ordinal_lt_nextMonth (h : IsDate year month day) :
    ordinal year month day < daysBeforeYear year + daysBeforeMonth year (month + 1) := by
  have hday := h.day_pos
  have hday' := h.day_le
  rw [ordinal, daysBeforeMonth]
  omega

theorem ordinal_lt_nextYear (h : IsDate year month day) :
    ordinal year month day < daysBeforeYear (year + 1) := by
  have hmonth : month + 1 ≤ 13 := Nat.succ_le_succ h.month_le
  have hmonths := daysBeforeMonth_mono year hmonth
  rw [daysBeforeMonth_thirteen] at hmonths
  have hlt := ordinal_lt_nextMonth h
  rw [daysBeforeYear]
  omega

theorem ordinal_lt_of_earlier (h : IsDate year month day) (h' : IsDate year' month' day')
    (hearlier : Earlier year month day year' month' day') :
    ordinal year month day < ordinal year' month' day' := by
  obtain hyear | ⟨rfl, hmonth | ⟨rfl, hday⟩⟩ := hearlier
  · calc ordinal year month day < daysBeforeYear (year + 1) := ordinal_lt_nextYear h
      _ ≤ daysBeforeYear year' := daysBeforeYear_mono hyear
      _ ≤ ordinal year' month' day' := newYear_le_ordinal year' month' day'
  · calc ordinal year month day < daysBeforeYear year + daysBeforeMonth year (month + 1) :=
        ordinal_lt_nextMonth h
      _ ≤ daysBeforeYear year + daysBeforeMonth year month' :=
        Nat.add_le_add_left (daysBeforeMonth_mono year hmonth) _
      _ ≤ ordinal year month' day' := by unfold ordinal; omega
  · have hday_pos := h.day_pos
    unfold ordinal
    omega

/-! ## Years from March -/

/-- The days from the first of March of the year 0 to that of a year. -/
def daysBeforeMarch (year : Int) : Int :=
  365 * year + year / 4 - year / 100 + year / 400

/-- The year in which a date lies if it begins in March. -/
def marchYear (year month : Nat) : Int :=
  if month ≤ 2 then year - 1 else year

/-- The number of a month from March, which has the number 0. -/
def monthFromMarch (month : Nat) : Nat :=
  (month + 9) % 12

/-- The days from the first of March to a date. -/
def dayFromMarch (month day : Nat) : Int :=
  ((153 * monthFromMarch month + 2) / 5 : Nat) + day - 1

theorem monthFromMarch_eq (h : 1 ≤ month) (h' : month ≤ 12) :
    monthFromMarch month = if month ≤ 2 then month + 9 else month - 3 := by
  unfold monthFromMarch
  split_ifs <;> omega

theorem daysBeforeYear_eq (year : Nat) :
    (daysBeforeYear year : Int) = daysBeforeMarch (year - 1) + 366 := by
  induction year with
  | zero => rfl
  | succ year ih =>
    have hfour : (year : Int) / 4 = (year - 1 : Int) / 4 + (if year % 4 = 0 then 1 else 0) := by
      split_ifs <;> omega
    have hhundred :
        (year : Int) / 100 = (year - 1 : Int) / 100 + (if year % 100 = 0 then 1 else 0) := by
      split_ifs <;> omega
    have hera :
        (year : Int) / 400 = (year - 1 : Int) / 400 + (if year % 400 = 0 then 1 else 0) := by
      split_ifs <;> omega
    have hlength : (yearLength year : Int) = 365 + (if year % 4 = 0 then 1 else 0) -
        (if year % 100 = 0 then 1 else 0) + (if year % 400 = 0 then 1 else 0) := by
      by_cases hleap : IsLeap year
      · rw [yearLength, if_pos hleap]
        unfold IsLeap at hleap
        split_ifs <;> omega
      · rw [yearLength, if_neg hleap]
        unfold IsLeap at hleap
        split_ifs <;> omega
    unfold daysBeforeMarch at ih ⊢
    rw [daysBeforeYear, Nat.cast_add, ih, hlength, Nat.cast_succ, Int.add_sub_cancel, hfour,
      hhundred, hera]
    ring

/-- From March on the lengths of the months follow a fixed rhythm. -/
theorem daysBeforeMonth_eq (year : Nat) (h : 3 ≤ month) (h' : month ≤ 12) :
    daysBeforeMonth year month + 306 = yearLength year + (153 * monthFromMarch month + 2) / 5 := by
  by_cases hleap : IsLeap year <;> interval_cases month <;>
    simp [daysBeforeMonth, monthLength, yearLength, monthFromMarch, hleap]

theorem ordinal_eq (h : IsDate year month day) :
    (ordinal year month day : Int) =
      daysBeforeMarch (marchYear year month) + dayFromMarch month day + 60 := by
  obtain ⟨hmonth, hmonth', hday, -⟩ := h
  unfold ordinal marchYear dayFromMarch
  split_ifs with hwinter
  · have hyear := daysBeforeYear_eq year
    obtain rfl | rfl : month = 1 ∨ month = 2 := by omega
    · simp only [daysBeforeMonth, monthLength, monthFromMarch]
      omega
    · simp only [daysBeforeMonth, monthLength, monthFromMarch]
      omega
  · have hyear := daysBeforeYear_eq (year + 1)
    rw [daysBeforeYear] at hyear
    have hbefore := daysBeforeMonth_eq year (by omega) hmonth'
    rw [Nat.cast_succ, Int.add_sub_cancel] at hyear
    omega

theorem daysOfDate_eq_march (year month day : Nat) :
    daysOfDate year month day =
      daysBeforeMarch (marchYear year month) + dayFromMarch month day - 719468 := by
  unfold daysOfDate
  dsimp only
  rw [show (if month ≤ 2 then (year : Int) - 1 else year) = marchYear year month from rfl]
  unfold daysBeforeMarch dayFromMarch monthFromMarch
  push_cast
  generalize marchYear year month = y
  omega

/-- The days of a date are those that the calendar counts, from the first of January 1970. -/
theorem daysOfDate_eq (h : IsDate year month day) :
    daysOfDate year month day = (ordinal year month day : Int) - 719528 := by
  rw [daysOfDate_eq_march, ordinal_eq h]
  omega

/-! A year from March is taken apart into an era of four centuries, the century in the era, the four
years in the century and the year among these. -/

section

variable {e c q r d : Int} (hc : 0 ≤ c ∧ c ≤ 3) (hq : 0 ≤ q ∧ q ≤ 24) (hr : 0 ≤ r ∧ r ≤ 3)

include hc hq hr

/-- The eras, the centuries, the four years and the years each have their days. -/
theorem daysBeforeMarch_parts : daysBeforeMarch (400 * e + 100 * c + 4 * q + r) =
    146097 * e + (36524 * c + 1461 * q + 365 * r) := by
  unfold daysBeforeMarch
  omega

/-- The days of an era do not reach into the next. -/
theorem era_eq (hd : 0 ≤ d ∧ d ≤ 365) (hlast : d = 365 → r = 3 ∧ (q = 24 → c = 3)) :
    (146097 * e + (36524 * c + 1461 * q + 365 * r) + d) / 146097 = e := by
  have hday : 36524 * c + 1461 * q + 365 * r + d < 146097 := by
    by_cases hend : d = 365
    · obtain ⟨hr3, hcentury⟩ := hlast hend
      by_cases hq24 : q = 24
      · have hc3 := hcentury hq24
        omega
      · omega
    · omega
  clear hlast
  omega

/-- The year of an era is read off the day of the era. -/
theorem yearOfEra_eq {dayOfEra : Int} (hd : 0 ≤ d ∧ d ≤ 365)
    (hlast : d = 365 → r = 3 ∧ (q = 24 → c = 3))
    (hera : dayOfEra = 36524 * c + 1461 * q + 365 * r + d) :
    (dayOfEra - dayOfEra / 1460 + dayOfEra / 36524 - dayOfEra / 146096) / 365 =
      100 * c + 4 * q + r := by
  have hquarters : dayOfEra / 1460 =
      25 * c + q + (24 * c + q + 365 * r + d) / 1460 := by omega
  -- the last day of an era is the one day on which the count of centuries runs ahead
  by_cases hend : dayOfEra = 146096
  · omega
  · have hcenturies : dayOfEra / 36524 = c := by omega
    have hwhole : dayOfEra / 146096 = 0 := by omega
    rw [hcenturies, hwhole, hquarters]
    omega

omit hc in
theorem dayOfYear_eq : 36524 * c + 1461 * q + 365 * r + d - (365 * (100 * c + 4 * q + r) +
    (100 * c + 4 * q + r) / 4 - (100 * c + 4 * q + r) / 100) = d := by
  omega

end

theorem monthLength_le (year : Nat) (h : 1 ≤ month) (h' : month ≤ 12) :
    (153 * monthFromMarch month + 2) / 5 + monthLength year month ≤
      if month = 2 then 366 else (153 * (monthFromMarch month + 1) + 2) / 5 := by
  by_cases hleap : IsLeap year <;> interval_cases month <;>
    simp [monthLength, monthFromMarch, hleap]

/-- The last day of a year of 366 days from March is a leap day. -/
theorem leapDay_of_dayFromMarch (h : IsDate year month day) (hlast : dayFromMarch month day = 365) :
    month = 2 ∧ IsLeap year := by
  have hle := monthLength_le year h.month_pos h.month_le
  have hnumber := monthFromMarch_eq h.month_pos h.month_le
  have hday := h.day_le
  unfold dayFromMarch at hlast
  have hmonth : month = 2 := by
    by_contra hother
    rw [if_neg hother] at hle
    have := h.month_pos
    have := h.month_le
    split_ifs at hnumber <;> omega
  subst hmonth
  refine ⟨rfl, ?_⟩
  by_contra hcommon
  rw [monthLength, if_neg hcommon] at hday
  rw [if_pos (le_refl 2)] at hnumber
  omega

theorem dayFromMarch_mem (h : IsDate year month day) :
    0 ≤ dayFromMarch month day ∧ dayFromMarch month day ≤ 365 ∧
      (5 * dayFromMarch month day + 2) / 153 = monthFromMarch month := by
  have hle := monthLength_le year h.month_pos h.month_le
  have hnumber := monthFromMarch_eq h.month_pos h.month_le
  obtain ⟨hmonth, hmonth', hday, hday'⟩ := h
  unfold dayFromMarch
  split_ifs at hle hnumber <;> omega

/-- A day is taken apart into the year from March and the day in it. -/
theorem dateOfDays_march {y d : Int} (hd : 0 ≤ d ∧ d ≤ 365)
    (hlast : d = 365 → (y + 1) % 4 = 0 ∧ ((y + 1) % 100 = 0 → (y + 1) % 400 = 0)) :
    dateOfDays (daysBeforeMarch y + d - 719468) =
      let shifted := (5 * d + 2) / 153
      let month := if shifted < 10 then shifted + 3 else shifted - 9
      (if month ≤ 2 then y + 1 else y, month, d - (153 * shifted + 2) / 5 + 1) := by
  obtain ⟨e, c, q, r, hc, hq, hr, rfl⟩ : ∃ e c q r : Int, (0 ≤ c ∧ c ≤ 3) ∧ (0 ≤ q ∧ q ≤ 24) ∧
      (0 ≤ r ∧ r ≤ 3) ∧ y = 400 * e + 100 * c + 4 * q + r :=
    ⟨y / 400, y % 400 / 100, y % 100 / 4, y % 4, by omega, by omega, by omega, by omega⟩
  -- only a leap year has a day 365 from March, and it is the last of its four years
  have hlast' : d = 365 → r = 3 ∧ (q = 24 → c = 3) := by
    intro hend
    obtain ⟨hfour, hhundred⟩ := hlast hend
    refine ⟨by omega, fun hq24 => ?_⟩
    have := hhundred (by omega)
    omega
  have hdays : 146097 * e + (36524 * c + 1461 * q + 365 * r) + d - 719468 + 719468 =
      146097 * e + (36524 * c + 1461 * q + 365 * r) + d := Int.sub_add_cancel _ _
  have hrest : 146097 * e + (36524 * c + 1461 * q + 365 * r) + d - e * 146097 =
      36524 * c + 1461 * q + 365 * r + d := by ring
  have hyear : 100 * c + 4 * q + r + e * 400 = 400 * e + 100 * c + 4 * q + r := by ring
  unfold dateOfDays
  dsimp only
  rw [daysBeforeMarch_parts hc hq hr, hdays, era_eq hc hq hr hd hlast', hrest,
    yearOfEra_eq hc hq hr hd hlast' rfl, dayOfYear_eq hq hr, hyear]

/-- The date of a day is the one that the calendar has for it. -/
theorem dateOfDays_eq (h : IsDate year month day) :
    dateOfDays ((ordinal year month day : Int) - 719528) =
      ((year : Int), (month : Int), (day : Int)) := by
  obtain ⟨hd, hd', hshifted⟩ := dayFromMarch_mem h
  have hlast : dayFromMarch month day = 365 → (marchYear year month + 1) % 4 = 0 ∧
      ((marchYear year month + 1) % 100 = 0 → (marchYear year month + 1) % 400 = 0) := by
    intro hlast
    obtain ⟨rfl, hleap⟩ := leapDay_of_dayFromMarch h hlast
    unfold IsLeap at hleap
    rw [marchYear, if_pos (le_refl 2)]
    omega
  rw [ordinal_eq h, show ∀ n : Int, n + 60 - 719528 = n - 719468 by omega,
    dateOfDays_march ⟨hd, hd'⟩ hlast]
  have hmonth := h.month_pos
  have hmonth' := h.month_le
  have hnumber := monthFromMarch_eq hmonth hmonth'
  dsimp only
  rw [hshifted]
  unfold marchYear dayFromMarch
  push_cast
  simp only [Prod.mk.injEq]
  refine ⟨?_, ?_, ?_⟩
  · split_ifs at hnumber ⊢ <;> omega
  · split_ifs at hnumber ⊢ <;> omega
  · omega

end LiveCluster.Calendar
