/-
# Theory.Calendar — the Gregorian calendar

Dates, and their number: how many days are in the years, the months and the days in front of a
date.  Years that start in March end with the leap day, so the number of days in front of one
has a closed form (`daysBeforeYear_march`), and so has the number of days in front of a month
(`daysBeforeMonth_march`).  `marchDate_number` is the number of a date that is given by its day
of such a year, and `yearOfEra_bounds` finds the year of a day within 400 years.
-/
import Mathlib.Tactic.IntervalCases
import Mathlib.Tactic.SplitIfs
import Mathlib.Order.Monotone.Basic

namespace DnsLigase.Theory.Calendar

set_option autoImplicit false

/-! ## Dates -/

def leap (y : Nat) : Bool := y % 4 = 0 && (y % 100 ≠ 0 || y % 400 = 0)

def yearLength (y : Nat) : Nat := if leap y then 366 else 365

def monthLength (y : Nat) : Nat → Nat
  | 2 => if leap y then 29 else 28
  | 4 | 6 | 9 | 11 => 30
  | _ => 31

structure Date where
  year : Nat
  month : Nat
  day : Nat
  month_pos : 1 ≤ month
  month_le : month ≤ 12
  day_pos : 1 ≤ day
  day_le : day ≤ monthLength year month

/-- The days of the years in front of `y`. -/
def daysBeforeYear : Nat → Nat
  | 0 => 0
  | y + 1 => daysBeforeYear y + yearLength y

/-- The days of the months of the year `y` in front of a month; January is 1. -/
def daysBeforeMonth (y : Nat) : Nat → Nat
  | 0 => 0
  | 1 => 0
  | m + 2 => daysBeforeMonth y (m + 1) + monthLength y (m + 1)

/-- The days from the first day of the year 0 to a date. -/
def Date.number (date : Date) : Nat :=
  daysBeforeYear date.year + daysBeforeMonth date.year date.month + (date.day - 1)

/-- 1970-01-01. -/
def epoch : Date := ⟨1970, 1, 1, by decide, by decide, by decide, by decide⟩

/-! ## Years from March on -/

/-- The days from March of the year 0 to March of the year `y`. -/
def marchDays (y : Nat) : Nat := 365 * y + y / 4 - y / 100 + y / 400

theorem leap_eq (y : Nat) : leap y = true ↔ y % 4 = 0 ∧ (y % 100 ≠ 0 ∨ y % 400 = 0) := by
  simp [leap]

theorem div_succ (y n : Nat) : (y + 1) / n = y / n + (if (y + 1) % n = 0 then 1 else 0) := by
  rw [Nat.succ_div]
  simp only [Nat.dvd_iff_mod_eq_zero]

/-- A year from March on ends with the February of the next year. -/
theorem marchDays_succ (y : Nat) :
    marchDays (y + 1) = marchDays y + 365 + (if leap (y + 1) then 1 else 0) := by
  have less : y / 100 ≤ y / 4 := Nat.div_le_div_left (by decide) (by decide)
  have hundredth : (y + 1) % 100 = 0 → (y + 1) % 4 = 0 := by omega
  have era : (y + 1) % 400 = 0 → (y + 1) % 100 = 0 := by omega
  simp only [marchDays, div_succ, leap_eq]
  generalize (y + 1) % 4 = four, (y + 1) % 100 = hundred, (y + 1) % 400 = fourHundred at *
  generalize y / 4 = fours, y / 100 = hundreds, y / 400 = fourHundreds at *
  split_ifs <;> omega

/-- In front of March stand January, February, and the years before. -/
theorem daysBeforeYear_march (y : Nat) :
    daysBeforeYear y + 59 + (if leap y then 1 else 0) = 60 + marchDays y := by
  induction y with
  | zero => decide
  | succ y ih =>
      rw [daysBeforeYear, yearLength, marchDays_succ]
      split_ifs at ih ⊢ <;> omega

/-! ## Months from March on -/

/-- The month of a day from March on, with March as 0. -/
def marchMonth (day : Nat) : Nat := (5 * day + 2) / 153

/-- The days from March to the month `mp`. -/
def marchMonthDays (mp : Nat) : Nat := (153 * mp + 2) / 5

theorem marchMonth_bounds (day : Nat) :
    marchMonthDays (marchMonth day) ≤ day ∧ day < marchMonthDays (marchMonth day + 1) := by
  unfold marchMonthDays marchMonth
  omega

theorem marchMonth_le {day y : Nat} (inYear : day < 365 + (if leap y then 1 else 0)) :
    marchMonth day ≤ 11 := by
  unfold marchMonth
  split_ifs at inYear <;> omega

theorem marchMonthDays_succ {y mp : Nat} (inYear : mp < 10) :
    marchMonthDays (mp + 1) = marchMonthDays mp + monthLength y (mp + 3) := by
  interval_cases mp <;> rfl

theorem daysBeforeMonth_march {y mp : Nat} (inYear : mp < 10) :
    daysBeforeMonth y (mp + 3) = 59 + (if leap y then 1 else 0) + marchMonthDays mp := by
  induction mp with
  | zero => simp only [daysBeforeMonth, monthLength, marchMonthDays]; split_ifs <;> rfl
  | succ mp ih =>
      have before : mp < 10 := by omega
      rw [daysBeforeMonth, marchMonthDays_succ (y := y) before, ← Nat.add_assoc, ← ih before]

/-- The date of a day of the year from March on. -/
def marchDate (y day : Nat) (inYear : day < 365 + (if leap (y + 1) then 1 else 0)) : Date where
  year := if marchMonth day < 10 then y else y + 1
  month := if marchMonth day < 10 then marchMonth day + 3 else marchMonth day - 9
  day := day - marchMonthDays (marchMonth day) + 1
  month_pos := by split <;> omega
  month_le := by
    have last := marchMonth_le inYear
    split <;> omega
  day_pos := by omega
  day_le := by
    obtain ⟨low, high⟩ := marchMonth_bounds day
    have last := marchMonth_le inYear
    split_ifs with early
    · rw [marchMonthDays_succ (y := y) early] at high
      omega
    · -- January and February, whose end the length of the year gives.
      obtain january | february : marchMonth day = 10 ∨ marchMonth day = 11 := by omega
      · simp only [january, marchMonthDays] at high ⊢
        simp only [monthLength]
        omega
      · simp only [february, marchMonthDays] at low ⊢
        simp only [monthLength]
        split_ifs at inYear ⊢ <;> omega

theorem marchDate_number {y day : Nat} (inYear : day < 365 + (if leap (y + 1) then 1 else 0)) :
    (marchDate y day inYear).number = 60 + marchDays y + day := by
  obtain ⟨low, -⟩ := marchMonth_bounds day
  have last := marchMonth_le inYear
  have years := daysBeforeYear_march y
  simp only [Date.number, marchDate]
  split_ifs with early
  · rw [daysBeforeMonth_march early]
    omega
  · rw [daysBeforeYear, yearLength]
    obtain january | february : marchMonth day = 10 ∨ marchMonth day = 11 := by omega
    · have before : daysBeforeMonth (y + 1) (10 - 9) = 0 := rfl
      simp only [january, marchMonthDays, before] at low ⊢
      split_ifs at years ⊢ <;> omega
    · have before : daysBeforeMonth (y + 1) (11 - 9) = 31 := rfl
      simp only [february, marchMonthDays, before] at low ⊢
      split_ifs at years ⊢ <;> omega

/-! ## Eras of 400 years -/

theorem marchDays_era (y era : Nat) : marchDays (y + 400 * era) = marchDays y + 146097 * era := by
  unfold marchDays
  omega

/-- The year of a day of an era: the leap days in front of it are taken out first. -/
def yearOfEra (day : Nat) : Nat := (day - day / 1460 + day / 36524 - day / 146096) / 365

theorem yearOfEra_mono : Monotone yearOfEra := by
  refine monotone_nat_of_le_succ fun day => Nat.div_le_div_right ?_
  have cycle : (day + 1) % 146096 = 0 → (day + 1) % 36524 = 0 := by omega
  simp only [div_succ]
  generalize (day + 1) % 146096 = era, (day + 1) % 36524 = century at *
  have less : day / 146096 ≤ day / 36524 := Nat.div_le_div_left (by decide) (by decide)
  split_ifs <;> omega

/-- The first and the last day of each year. -/
theorem yearOfEra_ends : ∀ y < 400,
    yearOfEra (marchDays y) = y ∧ yearOfEra (marchDays (y + 1) - 1) = y := by
  decide +kernel

theorem exists_marchYear {day : Nat} (y : Nat) (before : day < marchDays y) :
    ∃ k < y, marchDays k ≤ day ∧ day < marchDays (k + 1) := by
  induction y with
  | zero => cases before
  | succ y ih =>
      by_cases earlier : day < marchDays y
      · obtain ⟨k, small, bounds⟩ := ih earlier
        exact ⟨k, by omega, bounds⟩
      · exact ⟨y, by omega, by omega, before⟩

theorem yearOfEra_bounds {day : Nat} (inEra : day < 146097) :
    yearOfEra day < 400 ∧ marchDays (yearOfEra day) ≤ day ∧
      day < marchDays (yearOfEra day + 1) := by
  obtain ⟨y, small, low, high⟩ := exists_marchYear 400 inEra
  obtain ⟨first, last⟩ := yearOfEra_ends y small
  have atLeast := yearOfEra_mono low
  have atMost := yearOfEra_mono (show day ≤ marchDays (y + 1) - 1 by omega)
  have same : yearOfEra day = y := by omega
  rw [same]
  exact ⟨small, low, high⟩

end DnsLigase.Theory.Calendar
