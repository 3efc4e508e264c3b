import Mathlib.Data.Nat.Find
import Mathlib.Tactic.IntervalCases

/-!
# Dates of the Gregorian calendar

Days are numbered from the first of January of the year 0. The date of a day is found from its
number, and the numbers of days are ordered like year, month and day.
-/

set_option autoImplicit false

namespace Foundations

/-! ## Years -/

def isLeapYear (year : ℕ) : Prop := year % 4 = 0 ∧ (year % 100 ≠ 0 ∨ year % 400 = 0)

instance (year : ℕ) : Decidable (isLeapYear year) := inferInstanceAs (Decidable (_ ∧ _))

def daysInYear (year : ℕ) : ℕ := if isLeapYear year then 366 else 365

/-- The days before the first of January of a year. -/
def daysBeforeYear (year : ℕ) : ℕ :=
  365 * year + (year + 3) / 4 - (year + 99) / 100 + (year + 399) / 400

theorem daysBeforeYear_succ (year : ℕ) :
    daysBeforeYear (year + 1) = daysBeforeYear year + daysInYear year := by
  have fours : (year + 1 + 3) / 4 = (year + 3) / 4 + if year % 4 = 0 then 1 else 0 := by
    split <;> omega
  have hundreds : (year + 1 + 99) / 100 = (year + 99) / 100 + if year % 100 = 0 then 1 else 0 := by
    split <;> omega
  have fourHundreds :
      (year + 1 + 399) / 400 = (year + 399) / 400 + if year % 400 = 0 then 1 else 0 := by
    split <;> omega
  have room : (year + 99) / 100 ≤ year := by omega
  rw [daysBeforeYear, daysBeforeYear, fours, hundreds, fourHundreds]
  by_cases leap : isLeapYear year
  · rw [daysInYear, if_pos leap]
    obtain ⟨divisible, century | cycle⟩ := leap
    · have noCycle : year % 400 ≠ 0 := by omega
      rw [if_pos divisible, if_neg century, if_neg noCycle]
      omega
    · have century : year % 100 = 0 := by omega
      rw [if_pos divisible, if_pos century, if_pos cycle]
      omega
  · rw [daysInYear, if_neg leap]
    by_cases century : year % 100 = 0
    · have divisible : year % 4 = 0 := by omega
      have noCycle : year % 400 ≠ 0 := fun cycle => leap ⟨divisible, .inr cycle⟩
      rw [if_pos divisible, if_pos century, if_neg noCycle]
      omega
    · have indivisible : year % 4 ≠ 0 := fun divisible => leap ⟨divisible, .inl century⟩
      have noCycle : year % 400 ≠ 0 := by omega
      rw [if_neg indivisible, if_neg century, if_neg noCycle]
      omega

theorem daysBeforeYear_mono {year later : ℕ} (order : year ≤ later) :
    daysBeforeYear year ≤ daysBeforeYear later := by
  induction later, order using Nat.le_induction with
  | base => exact le_rfl
  | succ later _ ih => exact ih.trans (daysBeforeYear_succ later ▸ Nat.le_add_right _ _)

/-! ## Months -/

def daysInMonth (year month : ℕ) : ℕ :=
  if month = 2 then if isLeapYear year then 29 else 28
  else if month = 4 ∨ month = 6 ∨ month = 9 ∨ month = 11 then 30
  else 31

/-- The days of a year before the first of a month. -/
def daysBeforeMonth (year : ℕ) : (month : ℕ) → ℕ
  | 0 | 1 => 0
  | month + 2 => daysBeforeMonth year (month + 1) + daysInMonth year (month + 1)

theorem daysBeforeMonth_succ (year : ℕ) {month : ℕ} (counted : 1 ≤ month) :
    daysBeforeMonth year (month + 1) = daysBeforeMonth year month + daysInMonth year month := by
  obtain ⟨month, rfl⟩ := Nat.exists_eq_add_of_le' counted
  rfl

theorem daysBeforeMonth_mono (year : ℕ) {month later : ℕ} (counted : 1 ≤ month)
    (order : month ≤ later) : daysBeforeMonth year month ≤ daysBeforeMonth year later := by
  induction later, order using Nat.le_induction with
  | base => exact le_rfl
  | succ later above ih =>
      exact ih.trans (daysBeforeMonth_succ year (counted.trans above) ▸ Nat.le_add_right _ _)

theorem daysBeforeMonth_year (year : ℕ) : daysBeforeMonth year 13 = daysInYear year := by
  by_cases leap : isLeapYear year
  · simp [daysBeforeMonth, daysInMonth, daysInYear, leap]
  · simp [daysBeforeMonth, daysInMonth, daysInYear, leap]

theorem daysInMonth_le (year month : ℕ) : daysInMonth year month ≤ 31 := by
  unfold daysInMonth
  split
  · split <;> omega
  · split <;> omega

/-! ## Dates -/

structure Date where
  year : ℕ
  month : ℕ
  day : ℕ
deriving DecidableEq

namespace Date

/-- A month of the year and a day of the month. -/
structure Valid (date : Date) : Prop where
  firstMonth : 1 ≤ date.month
  lastMonth : date.month ≤ 12
  firstDay : 1 ≤ date.day
  lastDay : date.day ≤ daysInMonth date.year date.month

def dayNumber (date : Date) : ℕ :=
  daysBeforeYear date.year + daysBeforeMonth date.year date.month + (date.day - 1)

theorem Valid.beforeMonth {date : Date} (valid : date.Valid) :
    daysBeforeMonth date.year date.month + (date.day - 1) <
      daysBeforeMonth date.year (date.month + 1) := by
  obtain ⟨firstMonth, -, firstDay, lastDay⟩ := valid
  rw [daysBeforeMonth_succ date.year firstMonth]
  omega

theorem Valid.beforeYear {date : Date} (valid : date.Valid) :
    date.dayNumber < daysBeforeYear (date.year + 1) := by
  have inside := valid.beforeMonth
  have within := daysBeforeMonth_mono date.year (Nat.le_add_left 1 date.month)
    (Nat.succ_le_succ valid.lastMonth)
  rw [daysBeforeMonth_year] at within
  rw [daysBeforeYear_succ, dayNumber]
  omega

/-- An earlier date has a smaller number. -/
theorem dayNumber_lt {date later : Date} (valid : date.Valid)
    (order : date.year < later.year ∨ date.year = later.year ∧ (date.month < later.month ∨
      date.month = later.month ∧ date.day < later.day)) : date.dayNumber < later.dayNumber := by
  obtain years | ⟨year, months | ⟨month, days⟩⟩ := order
  · have inside := valid.beforeYear
    have between := daysBeforeYear_mono years
    refine inside.trans_le (between.trans ?_)
    rw [dayNumber, Nat.add_assoc]
    exact Nat.le_add_right _ _
  · have inside := valid.beforeMonth
    have between := daysBeforeMonth_mono date.year (Nat.le_add_left 1 date.month) months
    rw [dayNumber, dayNumber, ← year]
    omega
  · have first := valid.firstDay
    rw [dayNumber, dayNumber, ← year, ← month]
    omega

/-- Dates come in the order of year, month and day. -/
theorem dayNumber_lt_iff {date later : Date} (valid : date.Valid) (valid' : later.Valid) :
    date.dayNumber < later.dayNumber ↔ date.year < later.year ∨ date.year = later.year ∧
      (date.month < later.month ∨ date.month = later.month ∧ date.day < later.day) := by
  refine ⟨fun less => ?_, dayNumber_lt valid⟩
  by_contra notBefore
  by_cases after : later.year < date.year ∨ later.year = date.year ∧
      (later.month < date.month ∨ later.month = date.month ∧ later.day < date.day)
  · exact lt_asymm less (dayNumber_lt valid' after)
  · have same : date = later := by
      cases date
      cases later
      simp only [mk.injEq] at notBefore after ⊢
      omega
    exact lt_irrefl _ (same ▸ less)

/-- The date of a day that comes before a year. -/
def ofDayNumber (lastYear days : ℕ) : Date :=
  let year := Nat.findGreatest (fun year => daysBeforeYear year ≤ days) lastYear
  let rest := days - daysBeforeYear year
  let month := Nat.findGreatest (fun month => daysBeforeMonth year month ≤ rest) 12
  ⟨year, month, rest - daysBeforeMonth year month + 1⟩

theorem ofDayNumber_spec {lastYear days : ℕ} (bound : days < daysBeforeYear (lastYear + 1)) :
    (ofDayNumber lastYear days).Valid ∧ (ofDayNumber lastYear days).year ≤ lastYear ∧
      (ofDayNumber lastYear days).dayNumber = days := by
  unfold ofDayNumber
  extract_lets year rest month
  have begun : daysBeforeYear year ≤ days :=
    Nat.findGreatest_spec (P := fun year => daysBeforeYear year ≤ days) (Nat.zero_le lastYear)
      (Nat.zero_le days)
  have yearLe : year ≤ lastYear := Nat.findGreatest_le lastYear
  have ends : days < daysBeforeYear (year + 1) := by
    rcases Nat.lt_or_eq_of_le yearLe with before | last
    · refine not_le.mp ?_
      exact Nat.findGreatest_is_greatest (P := fun year => daysBeforeYear year ≤ days)
        (Nat.lt_succ_self year) before
    · rwa [last]
  have restLt : rest < daysInYear year := by
    rw [daysBeforeYear_succ] at ends
    omega
  have started : daysBeforeMonth year month ≤ rest :=
    Nat.findGreatest_spec (P := fun month => daysBeforeMonth year month ≤ rest)
      (show 1 ≤ 12 by decide) (Nat.zero_le rest)
  have monthLe : month ≤ 12 := Nat.findGreatest_le 12
  have counted : 1 ≤ month := Nat.le_findGreatest (show 1 ≤ 12 by decide) (Nat.zero_le rest)
  have stops : rest < daysBeforeMonth year (month + 1) := by
    rcases Nat.lt_or_eq_of_le monthLe with before | last
    · refine not_le.mp ?_
      exact Nat.findGreatest_is_greatest (P := fun month => daysBeforeMonth year month ≤ rest)
        (Nat.lt_succ_self month) before
    · rwa [last, daysBeforeMonth_year]
  rw [daysBeforeMonth_succ year counted] at stops
  refine ⟨⟨counted, monthLe, Nat.le_add_left 1 _, ?_⟩, yearLe, ?_⟩
  · exact show rest - daysBeforeMonth year month + 1 ≤ daysInMonth year month by omega
  · exact show daysBeforeYear year + daysBeforeMonth year month +
      (rest - daysBeforeMonth year month + 1 - 1) = days by omega

end Date

end Foundations
