import LiveCluster.Proofs.Number.Padded
import LiveCluster.Proofs.Restart.Calendar
import LiveCluster.Restart

/-!
# The stamp of an instant

An instant is placed on the time line by its date, its time of the day and its offset, in
microseconds from the beginning of the year 0, UTC. A stamp names a second of that line by
its date and time in UTC: it is read back as that second, and stamps sort like the seconds
they name, since every field has a fixed width and the fields come from the year down.
-/

namespace LiveCluster.Instant

open Calendar Number

/-! ## Time -/

/-- A date of the calendar, a time of the day and an offset of less than a day. -/
structure Civil (t : Instant) : Prop where
  year_pos : 1 ≤ t.year
  date : IsDate t.year.toNat t.month t.day
  hour_lt : t.hour < 24
  minute_lt : t.minute < 60
  second_lt : t.second < 60
  microsecond_lt : t.microsecond < 1000000
  offset_gt : -1440 < t.offset
  offset_lt : t.offset < 1440

/-- The microseconds from the first of January of the year 0, UTC. -/
def elapsed (t : Instant) : Int :=
  (((ordinal t.year.toNat t.month t.day * 24 + t.hour) * 60 + t.minute - t.offset) * 60 +
    t.second) * 1000000 + t.microsecond

/-- The second of the time line in which the instant falls. -/
def utcSecond (t : Instant) : Int :=
  t.elapsed / 1000000

/-- The beginning of a year in UTC. -/
def newYear (year : Nat) : Instant :=
  { year := year, month := 1, day := 1, hour := 0, minute := 0, second := 0 }

/-- In UTC the instant falls in one of the years from the first to the last. -/
def InYears (t : Instant) (first last : Nat) : Prop :=
  (newYear first).elapsed ≤ t.elapsed ∧ t.elapsed < (newYear (last + 1)).elapsed

/-- A civil date and time in UTC, to the second. -/
structure IsUtcSecond (u : Instant) : Prop where
  civil : u.Civil
  offset : u.offset = 0
  microsecond : u.microsecond = 0

variable {t u u' : Instant}

theorem elapsed_newYear (year : Nat) :
    (newYear year).elapsed = daysBeforeYear year * 86400000000 := by
  have hordinal : ordinal (newYear year).year.toNat (newYear year).month (newYear year).day =
      daysBeforeYear year := ordinal_newYear year
  unfold elapsed
  rw [hordinal]
  simp only [newYear]
  omega

/-- The two time lines differ by the days up to the first of January 1970. -/
theorem seconds_eq (h : t.Civil) : t.seconds = t.utcSecond - 719528 * 86400 := by
  have hpos := h.year_pos
  have hyear : ((t.year.toNat : Nat) : Int) = t.year := Int.toNat_of_nonneg (by omega)
  have hdays := daysOfDate_eq h.date
  have hmicrosecond := h.microsecond_lt
  rw [hyear] at hdays
  unfold seconds utcSecond elapsed
  rw [hdays]
  push_cast
  omega

/-! ## Text -/

/-- How a second in UTC is written. -/
def text (u : Instant) : String :=
  String.ofList (padded 4 u.year.toNat ++ '-' :: (padded 2 u.month ++ '-' :: (padded 2 u.day ++
    'T' :: (padded 2 u.hour ++ ':' :: (padded 2 u.minute ++ ':' :: (padded 2 u.second ++ ['Z']))))))

/-- Reads a second in UTC from `YYYY-MM-DDTHH:MM:SSZ`. -/
def read? (s : String) : Option Instant :=
  match s.toList with
  | [y₁, y₂, y₃, y₄, '-', o₁, o₂, '-', d₁, d₂, 'T', h₁, h₂, ':', m₁, m₂, ':', s₁, s₂, 'Z'] => do
    let year ← number? [y₁, y₂, y₃, y₄]
    let month ← number? [o₁, o₂]
    let day ← number? [d₁, d₂]
    let hour ← number? [h₁, h₂]
    let minute ← number? [m₁, m₂]
    let second ← number? [s₁, s₂]
    return { year := year, month := month, day := day, hour := hour, minute := minute,
             second := second }
  | _ => none

theorem toString_eq {width n : Nat} (h : 10 ^ width ≤ n) (h' : n < 10 ^ (width + 1)) :
    toString (n : Int) = String.ofList (padded (width + 1) n) := by
  rw [← toDigits_eq_padded h h']
  rfl

/-- Numbers of up to two digits are written with two. -/
theorem pad_eq {n : Nat} (h : n < 100) : pad n = String.ofList (padded 2 n) := by
  unfold pad
  split_ifs with hsmall
  · have hlt : n < 10 := by omega
    have hdigits : toString (n : Int) = String.ofList (Nat.toDigits 10 n) := rfl
    rw [hdigits, Nat.toDigits_of_lt_base hlt, ← String.toList_inj]
    simp [padded, Nat.div_eq_of_lt hlt, Nat.mod_eq_of_lt hlt]
  · exact toString_eq (by omega) (by omega)

theorem IsUtcSecond.fields_lt (h : u.IsUtcSecond) :
    u.month < 10 ^ 2 ∧ u.day < 10 ^ 2 ∧ u.hour < 10 ^ 2 ∧ u.minute < 10 ^ 2 ∧
      u.second < 10 ^ 2 := by
  obtain ⟨⟨-, ⟨-, hmonth, -, hday⟩, hhour, hminute, hsecond, -, -, -⟩, -, -⟩ := h
  have hlength := monthLength_le_thirtyOne u.year.toNat u.month
  omega

/-- The text of a second is read back as it. -/
theorem read?_text (h : u.IsUtcSecond) (hyear : u.year < 10000) : read? u.text = some u := by
  obtain ⟨hmonth, hday, hhour, hminute, hsecond⟩ := h.fields_lt
  have hyear_pos := h.civil.year_pos
  have hyear' : u.year.toNat < 10 ^ 4 := by omega
  have hcast : ((u.year.toNat : Nat) : Int) = u.year := Int.toNat_of_nonneg (by omega)
  have hread : read? u.text = (do
      let year ← number? (padded 4 u.year.toNat)
      let month ← number? (padded 2 u.month)
      let day ← number? (padded 2 u.day)
      let hour ← number? (padded 2 u.hour)
      let minute ← number? (padded 2 u.minute)
      let second ← number? (padded 2 u.second)
      return { year := year, month := month, day := day, hour := hour, minute := minute,
               second := second }) := by
    unfold read? text
    rw [String.toList_ofList]
    rfl
  rw [hread, number?_padded hyear', number?_padded hmonth, number?_padded hday,
    number?_padded hhour, number?_padded hminute, number?_padded hsecond]
  show some { u with year := (u.year.toNat : Int), microsecond := 0, offset := 0 } = some u
  obtain ⟨-, hoffset, hmicrosecond⟩ := h
  rw [hcast, ← hmicrosecond, ← hoffset]

/-- Seconds in UTC come in the order of their dates and times. -/
theorem elapsed_lt_iff (h : u.IsUtcSecond) (h' : u'.IsUtcSecond) :
    u.elapsed < u'.elapsed ↔
      u.year.toNat < u'.year.toNat ∨ u.year.toNat = u'.year.toNat ∧
        (u.month < u'.month ∨ u.month = u'.month ∧
          (u.day < u'.day ∨ u.day = u'.day ∧
            (u.hour < u'.hour ∨ u.hour = u'.hour ∧
              (u.minute < u'.minute ∨ u.minute = u'.minute ∧ u.second < u'.second)))) := by
  obtain ⟨⟨-, hdate, hhour, hminute, hsecond, -, -, -⟩, hoffset, hmicrosecond⟩ := h
  obtain ⟨⟨-, hdate', hhour', hminute', hsecond', -, -, -⟩, hoffset', hmicrosecond'⟩ := h'
  unfold elapsed
  rw [hoffset, hmicrosecond, hoffset', hmicrosecond']
  have hsame : Earlier u.year.toNat u.month u.day u'.year.toNat u'.month u'.day ∨
      Earlier u'.year.toNat u'.month u'.day u.year.toNat u.month u.day ∨
      u.year.toNat = u'.year.toNat ∧ u.month = u'.month ∧ u.day = u'.day := by
    unfold Earlier
    omega
  obtain hearlier | hlater | ⟨hyear, hmonth, hday⟩ := hsame
  · have hlt := ordinal_lt_of_earlier hdate hdate' hearlier
    unfold Earlier at hearlier
    omega
  · have hlt := ordinal_lt_of_earlier hdate' hdate hlater
    unfold Earlier at hlater
    omega
  · rw [hyear, hmonth, hday]
    omega

/-- Texts of seconds come in the order of the seconds. -/
theorem text_lt_iff (h : u.IsUtcSecond) (h' : u'.IsUtcSecond) (hyear : u.year < 10000)
    (hyear' : u'.year < 10000) : u.text < u'.text ↔ u.elapsed < u'.elapsed := by
  obtain ⟨hmonth, hday, hhour, hminute, hsecond⟩ := h.fields_lt
  obtain ⟨hmonth', hday', hhour', hminute', hsecond'⟩ := h'.fields_lt
  have hy : u.year.toNat < 10 ^ 4 := by omega
  have hy' : u'.year.toNat < 10 ^ 4 := by omega
  rw [elapsed_lt_iff h h', String.lt_iff_toList_lt]
  unfold text
  simp only [String.toList_ofList, padded_append_lt_iff hy hy',
    padded_append_lt_iff hmonth hmonth', padded_append_lt_iff hday hday',
    padded_append_lt_iff hhour hhour', padded_append_lt_iff hminute hminute',
    padded_append_lt_iff hsecond hsecond', List.cons_lt_cons_iff, lt_irrefl, false_or, true_and,
    and_false, or_false]

/-! ## The stamp of an instant -/

/-- So many seconds into a day in UTC. -/
def onDay (year month day seconds : Nat) : Instant where
  year := year
  month := month
  day := day
  hour := seconds / 3600
  minute := seconds / 60 % 60
  second := seconds % 60

section

variable {year month day seconds : Nat}

theorem isUtcSecond_onDay (hyear : 1 ≤ year) (hdate : IsDate year month day)
    (hseconds : seconds < 86400) : (onDay year month day seconds).IsUtcSecond := by
  refine ⟨⟨?_, hdate, ?_, ?_, ?_, ?_, ?_, ?_⟩, rfl, rfl⟩
  all_goals
    simp only [onDay]
    omega

theorem elapsed_onDay : (onDay year month day seconds).elapsed =
    (ordinal year month day * 86400 + seconds : Nat) * 1000000 := by
  unfold elapsed onDay
  simp only [Int.toNat_natCast]
  omega

end

/-- Each second of the years from the first to the last has a date and a time in UTC. -/
theorem exists_utcSecond {first last : Nat} (hfirst : 1 ≤ first) (h : t.InYears first last) :
    ∃ u : Instant, u.IsUtcSecond ∧ first ≤ u.year ∧ u.year ≤ last ∧
      u.elapsed = t.utcSecond * 1000000 := by
  obtain ⟨hlow, hhigh⟩ := h
  rw [elapsed_newYear] at hlow hhigh
  have hsecond : (daysBeforeYear first : Int) * 86400 ≤ t.utcSecond ∧
      t.utcSecond < (daysBeforeYear (last + 1) : Int) * 86400 := by
    unfold utcSecond
    omega
  obtain ⟨seconds, hseconds⟩ : ∃ n : Nat, t.utcSecond = n := Int.eq_ofNat_of_zero_le (by omega)
  obtain ⟨year, month, day, hdate, hordinal⟩ := exists_date (seconds / 86400)
  have hyear : first < year + 1 := by
    have hnext := ordinal_lt_nextYear hdate
    exact daysBeforeYear_mono.reflect_lt (by omega)
  have hyear' : year < last + 1 := by
    have hstart := newYear_le_ordinal year month day
    exact daysBeforeYear_mono.reflect_lt (by omega)
  refine ⟨onDay year month day (seconds % 86400),
    isUtcSecond_onDay (by omega) hdate (Nat.mod_lt _ (by decide)), ?_, ?_, ?_⟩
  · exact Int.ofNat_le.2 (Nat.le_of_lt_succ hyear)
  · exact Int.ofNat_le.2 (Nat.le_of_lt_succ hyear')
  · rw [elapsed_onDay, hordinal, hseconds, Nat.div_add_mod']

theorem text_eq_append (u : Instant) : u.text = String.ofList (padded 4 u.year.toNat) ++ "-" ++
    String.ofList (padded 2 u.month) ++ "-" ++ String.ofList (padded 2 u.day) ++ "T" ++
    String.ofList (padded 2 u.hour) ++ ":" ++ String.ofList (padded 2 u.minute) ++ ":" ++
    String.ofList (padded 2 u.second) ++ "Z" := by
  have hdash : "-".toList = ['-'] := rfl
  have hcolon : ":".toList = [':'] := rfl
  have htime : "T".toList = ['T'] := rfl
  have hzulu : "Z".toList = ['Z'] := rfl
  rw [← String.toList_inj]
  simp only [text, String.toList_append, String.toList_ofList, hdash, hcolon, htime, hzulu,
    List.append_assoc, List.cons_append, List.nil_append]

/-- The stamp of an instant is the text of its second in UTC. -/
theorem stamp_eq_text (ht : t.Civil) (hu : u.IsUtcSecond) (hyear : 1000 ≤ u.year)
    (hyear' : u.year ≤ 9999) (h : u.elapsed = t.utcSecond * 1000000) : t.stamp = .ok u.text := by
  obtain ⟨hmonth, hday, hhour, hminute, hsecond⟩ := hu.fields_lt
  obtain ⟨⟨hyear_pos, hdate, hhour', hminute', hsecond', -, -, -⟩, hoffset, hmicrosecond⟩ := hu
  unfold elapsed at h
  rw [hoffset, hmicrosecond] at h
  have hdays : t.seconds / 86400 = ordinal u.year.toNat u.month u.day - 719528 := by
    rw [seconds_eq ht]
    omega
  have hrest : t.seconds % 86400 = (u.hour * 3600 + u.minute * 60 + u.second : Nat) := by
    rw [seconds_eq ht]
    omega
  have hhours : t.seconds % 86400 / 3600 = u.hour := by omega
  have hminutes : t.seconds % 86400 / 60 % 60 = u.minute := by omega
  have hseconds : t.seconds % 86400 % 60 = u.second := by omega
  have hrange : ¬ (decide ((u.year.toNat : Int) < 1) ||
      decide ((u.year.toNat : Int) > 9999)) = true := by
    rw [Bool.or_eq_true, decide_eq_true_eq, decide_eq_true_eq]
    omega
  have hyear_text : toString (u.year.toNat : Int) = String.ofList (padded 4 u.year.toNat) :=
    toString_eq (by omega) (by omega)
  unfold stamp
  dsimp only
  rw [hdays, dateOfDays_eq hdate, hhours, hminutes, hseconds]
  dsimp only
  rw [if_neg hrange, hyear_text, pad_eq hmonth, pad_eq hday, pad_eq hhour, pad_eq hminute,
    pad_eq hsecond, text_eq_append]

end LiveCluster.Instant
