import Mathlib.Algebra.Order.Ring.Int
import Mathlib.Order.Monotone.Basic
import Mathlib.Tactic.Common

/-!
# The proleptic Gregorian calendar

Dates as year, month and day, with the number of days since the first day of year 1. A
date is determined by its number, and its year by the bounds of the number.
-/

namespace Calendar

/-- A leap year. -/
def IsLeap (y : ℤ) : Prop := y % 4 = 0 ∧ (y % 100 ≠ 0 ∨ y % 400 = 0)

instance (y : ℤ) : Decidable (IsLeap y) := by
  unfold IsLeap
  infer_instance

/-- The days of a year. -/
def daysInYear (y : ℤ) : ℤ := if IsLeap y then 366 else 365

/-- The length of a month, counted from 1. -/
def daysInMonth (y : ℤ) : ℕ → ℤ
  | 2 => if IsLeap y then 29 else 28
  | 4 => 30
  | 6 => 30
  | 9 => 30
  | 11 => 30
  | _ => 31

/-- The days of the year before a month. -/
def daysBeforeMonth (y : ℤ) : ℕ → ℤ
  | 0 => 0
  | 1 => 0
  | m + 2 => daysBeforeMonth y (m + 1) + daysInMonth y (m + 1)

/-- The days before a year, from year 1 on, or after it, with a minus sign. -/
def daysBeforeYear (y : ℤ) : ℤ :=
  365 * (y - 1) + (y - 1) / 4 - (y - 1) / 100 + (y - 1) / 400

/-- A year adds its days. -/
theorem daysBeforeYear_succ (y : ℤ) :
    daysBeforeYear (y + 1) = daysBeforeYear y + daysInYear y := by
  by_cases h : IsLeap y
  · rw [daysInYear, if_pos h]
    unfold IsLeap at h
    unfold daysBeforeYear
    omega
  · rw [daysInYear, if_neg h]
    unfold IsLeap at h
    unfold daysBeforeYear
    omega

/-- Later years have more days before them. -/
theorem daysBeforeYear_mono {y y' : ℤ} (h : y ≤ y') : daysBeforeYear y ≤ daysBeforeYear y' := by
  unfold daysBeforeYear
  omega

/-- The calendar repeats every 400 years. -/
theorem daysBeforeYear_add_mul (y k : ℤ) :
    daysBeforeYear (y + 400 * k) = daysBeforeYear y + 146097 * k := by
  unfold daysBeforeYear
  omega

theorem daysInMonth_nonneg (y : ℤ) (m : ℕ) : 0 ≤ daysInMonth y m := by
  unfold daysInMonth
  split
  · split <;> decide
  all_goals decide

theorem daysInMonth_le (y : ℤ) (m : ℕ) : daysInMonth y m ≤ 31 := by
  unfold daysInMonth
  split
  · split <;> decide
  all_goals decide

/-- Later months have more days before them. -/
theorem daysBeforeMonth_mono (y : ℤ) {m n : ℕ} (h : m ≤ n) :
    daysBeforeMonth y m ≤ daysBeforeMonth y n := by
  refine monotone_nat_of_le_succ (fun m => ?_) h
  cases m with
  | zero => exact le_rfl
  | succ m => exact le_add_of_nonneg_right (daysInMonth_nonneg y (m + 1))

theorem daysBeforeMonth_succ (y : ℤ) {m : ℕ} (hm : 1 ≤ m) :
    daysBeforeMonth y (m + 1) = daysBeforeMonth y m + daysInMonth y m := by
  obtain ⟨m, rfl⟩ : ∃ k, m = k + 1 := ⟨m - 1, by omega⟩
  rfl

/-- The twelve months make up the year. -/
theorem daysBeforeMonth_thirteen (y : ℤ) : daysBeforeMonth y 13 = daysInYear y := by
  simp only [daysBeforeMonth, daysInMonth, daysInYear]
  split <;> rfl

theorem daysInMonth_congr {y y' : ℤ} (h : IsLeap y ↔ IsLeap y') :
    daysInMonth y = daysInMonth y' := by
  funext m
  simp only [daysInMonth, h]

theorem daysBeforeMonth_congr {y y' : ℤ} (h : IsLeap y ↔ IsLeap y') :
    ∀ m, daysBeforeMonth y m = daysBeforeMonth y' m
  | 0 => rfl
  | 1 => rfl
  | m + 2 => by
    rw [daysBeforeMonth, daysBeforeMonth, daysBeforeMonth_congr h, daysInMonth_congr h]

/-! ## Dates -/

/-- A date of the calendar. -/
@[ext] structure Date where
  year : ℤ
  month : ℕ
  day : ℤ
  month_pos : 1 ≤ month
  month_le : month ≤ 12
  day_pos : 1 ≤ day
  day_le : day ≤ daysInMonth year month

namespace Date

variable (d : Date)

/-- The days from the first day of year 1 to the date. -/
def number : ℤ := daysBeforeYear d.year + daysBeforeMonth d.year d.month + (d.day - 1)

/-- A date is not before its year. -/
theorem daysBeforeYear_le_number : daysBeforeYear d.year ≤ d.number := by
  have h0 : daysBeforeMonth d.year 0 ≤ daysBeforeMonth d.year d.month :=
    daysBeforeMonth_mono _ (Nat.zero_le _)
  have := d.day_pos
  simp only [daysBeforeMonth] at h0
  unfold number
  omega

theorem dayOfYear_lt : daysBeforeMonth d.year d.month + (d.day - 1) <
    daysBeforeMonth d.year (d.month + 1) := by
  have := d.day_le
  rw [daysBeforeMonth_succ _ d.month_pos]
  omega

/-- It is before the next one. -/
theorem number_lt_daysBeforeYear : d.number < daysBeforeYear (d.year + 1) := by
  have h13 : daysBeforeMonth d.year (d.month + 1) ≤ daysBeforeMonth d.year 13 :=
    daysBeforeMonth_mono _ (Nat.succ_le_succ d.month_le)
  have := d.dayOfYear_lt
  rw [daysBeforeMonth_thirteen] at h13
  rw [daysBeforeYear_succ]
  unfold number
  omega

/-- The year of a date by the bounds of its number. -/
theorem lt_daysBeforeYear_iff (y : ℤ) : d.number < daysBeforeYear y ↔ d.year < y := by
  constructor
  · intro h
    by_contra hy
    have := daysBeforeYear_mono (not_lt.mp hy)
    have := d.daysBeforeYear_le_number
    omega
  · intro h
    exact d.number_lt_daysBeforeYear.trans_le (daysBeforeYear_mono (Int.add_one_le_of_lt h))

/-- The month of a date by the bounds of its day of the year. -/
theorem lt_daysBeforeMonth_iff (m : ℕ) :
    daysBeforeMonth d.year d.month + (d.day - 1) < daysBeforeMonth d.year m ↔ d.month < m := by
  constructor
  · intro h
    by_contra hm
    have := daysBeforeMonth_mono d.year (not_lt.mp hm)
    have := d.day_pos
    omega
  · intro h
    exact d.dayOfYear_lt.trans_le (daysBeforeMonth_mono _ h)

/-- A day has one date. -/
theorem eq_of_number_eq {d e : Date} (h : d.number = e.number) : d = e := by
  have hyear : d.year = e.year := by
    have hd := d.lt_daysBeforeYear_iff (e.year + 1)
    have he := e.lt_daysBeforeYear_iff (d.year + 1)
    have := d.number_lt_daysBeforeYear
    have := e.number_lt_daysBeforeYear
    omega
  have hday : daysBeforeMonth d.year d.month + (d.day - 1) =
      daysBeforeMonth d.year e.month + (e.day - 1) := by
    unfold number at h
    rw [← hyear] at h
    omega
  have hmonth : d.month = e.month := by
    have hd := d.lt_daysBeforeMonth_iff (e.month + 1)
    have he := e.lt_daysBeforeMonth_iff (d.month + 1)
    have hlt := d.dayOfYear_lt
    have hlt' := e.dayOfYear_lt
    rw [← hyear] at he hlt'
    omega
  rw [hmonth] at hday
  exact Date.ext hyear hmonth (by omega)

variable {d}

/-- The date of a day of the year. -/
def ofDay (y : ℤ) (m : ℕ) (day : ℤ) (hm : 1 ≤ m ∧ m ≤ 12) (hle : daysBeforeMonth y m ≤ day)
    (hlt : day < daysBeforeMonth y (m + 1)) : Date where
  year := y
  month := m
  day := day - daysBeforeMonth y m + 1
  month_pos := hm.1
  month_le := hm.2
  day_pos := by omega
  day_le := by
    rw [daysBeforeMonth_succ y hm.1] at hlt
    omega

theorem number_ofDay {y : ℤ} {m : ℕ} {day : ℤ} (hm : 1 ≤ m ∧ m ≤ 12)
    (hle : daysBeforeMonth y m ≤ day) (hlt : day < daysBeforeMonth y (m + 1)) :
    (ofDay y m day hm hle hlt).number = daysBeforeYear y + day := by
  simp only [number, ofDay]
  omega

end Date

end Calendar
