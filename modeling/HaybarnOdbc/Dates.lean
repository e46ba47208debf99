import HaybarnOdbc.Lib.Calendar
import HaybarnOdbc.Intervals

/-!
# Dates and times of the engine

`Date`, `Time` and `Timestamp` of the engine, as far as the driver uses them to take a
value apart : a date is a number of days and a timestamp a number of microseconds, both
since 1970-01-01, and the fields are found through tables of cumulative days. The spec
lemmas say what the fields are in the calendar.
-/

namespace HaybarnOdbc

open MachineInt Calendar

/-! ## Dates -/

namespace EngineDate

/-- `date_t::infinity`, and with a minus sign `date_t::ninfinity`. -/
def infinity : ℤ := 2 ^ 31 - 1

/-- `Date::IsFinite`. -/
def IsFinite (days : ℤ) : Prop := days ≠ infinity ∧ days ≠ -infinity

instance (days : ℤ) : Decidable (IsFinite days) := by
  unfold IsFinite
  infer_instance

/-- `DAYS_PER_YEAR_INTERVAL`, the days of `YEAR_INTERVAL` years. -/
def daysPerYearInterval : ℤ := 146097

/-- `Date::YEAR_INTERVAL`. -/
def yearInterval : ℤ := 400

/-- `Date::EPOCH_YEAR`. -/
def epochYear : ℤ := 1970

/-- `CUMULATIVE_DAYS`. -/
def cumulativeDays : List ℤ := [0, 31, 59, 90, 120, 151, 181, 212, 243, 273, 304, 334, 365]

/-- `CUMULATIVE_LEAP_DAYS`. -/
def cumulativeLeapDays : List ℤ := [0, 31, 60, 91, 121, 152, 182, 213, 244, 274, 305, 335, 366]

/-- `MONTH_PER_DAY_OF_YEAR`. -/
def monthPerDayOfYear : List ℕ :=
  List.replicate 31 1 ++ List.replicate 28 2 ++ List.replicate 31 3 ++ List.replicate 30 4 ++
    List.replicate 31 5 ++ List.replicate 30 6 ++ List.replicate 31 7 ++ List.replicate 31 8 ++
    List.replicate 30 9 ++ List.replicate 31 10 ++ List.replicate 30 11 ++ List.replicate 31 12

/-- `LEAP_MONTH_PER_DAY_OF_YEAR`. -/
def leapMonthPerDayOfYear : List ℕ :=
  List.replicate 31 1 ++ List.replicate 29 2 ++ List.replicate 31 3 ++ List.replicate 30 4 ++
    List.replicate 31 5 ++ List.replicate 30 6 ++ List.replicate 31 7 ++ List.replicate 31 8 ++
    List.replicate 30 9 ++ List.replicate 31 10 ++ List.replicate 30 11 ++ List.replicate 31 12

/-- `CUMULATIVE_YEAR_DAYS`. -/
def cumulativeYearDays : List ℤ :=
  [0, 365, 730, 1096, 1461, 1826, 2191, 2557, 2922, 3287, 3652, 4018, 4383, 4748, 5113, 5479, 5844,
   6209, 6574, 6940, 7305, 7670, 8035, 8401, 8766, 9131, 9496, 9862, 10227, 10592, 10957, 11323,
   11688, 12053, 12418, 12784, 13149, 13514, 13879, 14245, 14610, 14975, 15340, 15706, 16071, 16436,
   16801, 17167, 17532, 17897, 18262, 18628, 18993, 19358, 19723, 20089, 20454, 20819, 21184, 21550,
   21915, 22280, 22645, 23011, 23376, 23741, 24106, 24472, 24837, 25202, 25567, 25933, 26298, 26663,
   27028, 27394, 27759, 28124, 28489, 28855, 29220, 29585, 29950, 30316, 30681, 31046, 31411, 31777,
   32142, 32507, 32872, 33238, 33603, 33968, 34333, 34699, 35064, 35429, 35794, 36160, 36525, 36890,
   37255, 37621, 37986, 38351, 38716, 39082, 39447, 39812, 40177, 40543, 40908, 41273, 41638, 42004,
   42369, 42734, 43099, 43465, 43830, 44195, 44560, 44926, 45291, 45656, 46021, 46387, 46752, 47117,
   47482, 47847, 48212, 48577, 48942, 49308, 49673, 50038, 50403, 50769, 51134, 51499, 51864, 52230,
   52595, 52960, 53325, 53691, 54056, 54421, 54786, 55152, 55517, 55882, 56247, 56613, 56978, 57343,
   57708, 58074, 58439, 58804, 59169, 59535, 59900, 60265, 60630, 60996, 61361, 61726, 62091, 62457,
   62822, 63187, 63552, 63918, 64283, 64648, 65013, 65379, 65744, 66109, 66474, 66840, 67205, 67570,
   67935, 68301, 68666, 69031, 69396, 69762, 70127, 70492, 70857, 71223, 71588, 71953, 72318, 72684,
   73049, 73414, 73779, 74145, 74510, 74875, 75240, 75606, 75971, 76336, 76701, 77067, 77432, 77797,
   78162, 78528, 78893, 79258, 79623, 79989, 80354, 80719, 81084, 81450, 81815, 82180, 82545, 82911,
   83276, 83641, 84006, 84371, 84736, 85101, 85466, 85832, 86197, 86562, 86927, 87293, 87658, 88023,
   88388, 88754, 89119, 89484, 89849, 90215, 90580, 90945, 91310, 91676, 92041, 92406, 92771, 93137,
   93502, 93867, 94232, 94598, 94963, 95328, 95693, 96059, 96424, 96789, 97154, 97520, 97885, 98250,
   98615, 98981, 99346, 99711, 100076, 100442, 100807, 101172, 101537, 101903, 102268, 102633,
   102998, 103364, 103729, 104094, 104459, 104825, 105190, 105555, 105920, 106286, 106651, 107016,
   107381, 107747, 108112, 108477, 108842, 109208, 109573, 109938, 110303, 110669, 111034, 111399,
   111764, 112130, 112495, 112860, 113225, 113591, 113956, 114321, 114686, 115052, 115417, 115782,
   116147, 116513, 116878, 117243, 117608, 117974, 118339, 118704, 119069, 119435, 119800, 120165,
   120530, 120895, 121260, 121625, 121990, 122356, 122721, 123086, 123451, 123817, 124182, 124547,
   124912, 125278, 125643, 126008, 126373, 126739, 127104, 127469, 127834, 128200, 128565, 128930,
   129295, 129661, 130026, 130391, 130756, 131122, 131487, 131852, 132217, 132583, 132948, 133313,
   133678, 134044, 134409, 134774, 135139, 135505, 135870, 136235, 136600, 136966, 137331, 137696,
   138061, 138427, 138792, 139157, 139522, 139888, 140253, 140618, 140983, 141349, 141714, 142079,
   142444, 142810, 143175, 143540, 143905, 144271, 144636, 145001, 145366, 145732, 146097]

/-- The days of the years from 1970 before a year. -/
def yearDays (offset : ℕ) : ℤ := cumulativeYearDays.getD offset 0

/-- The first loop of `ExtractYearOffset`. -/
def raise (n year : ℤ) : ℤ × ℤ :=
  if n < 0 then raise (n + daysPerYearInterval) (year - yearInterval) else (n, year)
termination_by (-n).toNat
decreasing_by simp only [daysPerYearInterval]; omega

/-- The second loop of `ExtractYearOffset`. -/
def lower (n year : ℤ) : ℤ × ℤ :=
  if daysPerYearInterval ≤ n then lower (n - daysPerYearInterval) (year + yearInterval)
  else (n, year)
termination_by n.toNat
decreasing_by simp only [daysPerYearInterval] at *; omega

/-- The third loop, which stops at the first year at the latest. -/
def searchYear (n : ℤ) : ℕ → ℕ
  | 0 => 0
  | offset + 1 => if n < yearDays (offset + 1) then searchYear n offset else offset + 1

/-- `ExtractYearOffset` : the day and the year of an interval of 400 years from 1970, and
the year's place in it. -/
def extractYearOffset (n : ℤ) : ℤ × ℤ × ℕ :=
  let (n, year) := raise n epochYear
  let (n, year) := lower n year
  let offset := searchYear n (n.tdiv 365).toNat
  (n, year + offset, offset)

/-- `Date::Convert`. -/
def convert (days : ℤ) : ℤ × ℕ × ℤ :=
  let (n, year, offset) := extractYearOffset days
  let day := n - yearDays offset
  if yearDays (offset + 1) - yearDays offset = 366 then
    let month := leapMonthPerDayOfYear.getD day.toNat 0
    (year, month, day - cumulativeLeapDays.getD (month - 1) 0 + 1)
  else
    let month := monthPerDayOfYear.getD day.toNat 0
    (year, month, day - cumulativeDays.getD (month - 1) 0 + 1)

/-- `NORMAL_DAYS`. -/
def normalDays : List ℤ := [0, 31, 28, 31, 30, 31, 30, 31, 31, 30, 31, 30, 31]

/-- `LEAP_DAYS`. -/
def leapDays : List ℤ := [0, 31, 29, 31, 30, 31, 30, 31, 31, 30, 31, 30, 31]

/-- `IsValid` : a month, a day of the month, and the range of the dates of 32 bits. -/
def isValid (year month day : ℤ) : Bool :=
  if month < 1 ∨ 12 < month then false
  else if day < 1 then false
  else if year < -5877641 ∨ (year = -5877641 ∧ (month < 6 ∨ (month = 6 ∧ day < 25))) then false
  else if 5881580 < year ∨ (year = 5881580 ∧ (7 < month ∨ (month = 7 ∧ 10 < day))) then false
  else day ≤ (if IsLeap year then leapDays else normalDays).getD month.toNat 0

/-- The days from the epoch to a year, by the table of 400 years before or after. -/
def daysToYear (year : ℤ) : ℤ :=
  if year < epochYear then
    let diff := epochYear - year
    yearDays (400 - diff % 400).toNat - daysPerYearInterval - diff / 400 * daysPerYearInterval
  else if 2370 ≤ year then
    let diff := year - 2370
    yearDays (diff % 400).toNat + daysPerYearInterval + diff / 400 * daysPerYearInterval
  else yearDays (year - epochYear).toNat

/-- `TryFromDate`. -/
def tryFromDate (year month day : ℤ) : Option ℤ :=
  if isValid year month day then
    let before := (if IsLeap year then cumulativeLeapDays else cumulativeDays).getD
      (month.toNat - 1) 0
    some (before + (day - 1) + daysToYear year)
  else none

/-- `FromDate`. -/
def fromDate (year month day : ℤ) : Except String ℤ :=
  match tryFromDate year month day with
  | some days => .ok days
  | none => .error s!"Date out of range: {year}-{month}-{day}"

/-! ### The calendar -/

/-- `1970-01-01` among the days of the calendar. -/
def epochNumber : ℤ := daysBeforeYear epochYear

/-- The table of years is that of the calendar. -/
theorem cumulativeYearDays_eq : cumulativeYearDays =
    (List.range 401).map fun i : ℕ => daysBeforeYear (epochYear + i) - epochNumber := by
  decide +kernel

/-- The table has the days before each year of the interval. -/
theorem yearDays_eq {offset : ℕ} (h : offset ≤ 400) :
    yearDays offset = daysBeforeYear (epochYear + offset) - epochNumber := by
  rw [yearDays, cumulativeYearDays_eq, List.getD_eq_getElem?_getD, List.getElem?_map,
    List.getElem?_range (by omega)]
  rfl

/-- Raising adds whole intervals of 400 years. -/
theorem raise_spec (n year : ℤ) : ∃ k : ℤ, 0 ≤ (raise n year).1 ∧
    n = (raise n year).1 + daysPerYearInterval * k ∧
    (raise n year).2 = year + yearInterval * k := by
  fun_induction raise n year with
  | case1 n year hn ih =>
    obtain ⟨k, h0, hn, hyear⟩ := ih
    refine ⟨k - 1, h0, ?_, ?_⟩
    · simp only [daysPerYearInterval] at *
      omega
    · simp only [yearInterval] at *
      omega
  | case2 n year hn => exact ⟨0, by omega, by omega, by omega⟩

/-- Lowering takes whole intervals off. -/
theorem lower_spec {n : ℤ} (year : ℤ) (hn : 0 ≤ n) : ∃ k : ℤ, 0 ≤ (lower n year).1 ∧
    (lower n year).1 < daysPerYearInterval ∧
      n = (lower n year).1 + daysPerYearInterval * k ∧
        (lower n year).2 = year + yearInterval * k := by
  fun_induction lower n year with
  | case1 n year hle ih =>
    obtain ⟨k, h0, hlt, hn', hyear⟩ := ih (by omega)
    refine ⟨k + 1, h0, hlt, ?_, ?_⟩
    · simp only [daysPerYearInterval] at *
      omega
    · simp only [yearInterval] at *
      omega
  | case2 n year hlt => exact ⟨0, hn, by omega, by omega, by omega⟩

theorem searchYear_le (n : ℤ) (offset : ℕ) : searchYear n offset ≤ offset := by
  fun_induction searchYear n offset with
  | case1 => exact le_rfl
  | case2 offset _ ih => exact ih.trans (Nat.le_succ offset)
  | case3 => exact le_rfl

/-- From a bound above the year, the search ends at the year. -/
theorem searchYear_spec {n : ℤ} {offset : ℕ} (hn : 0 ≤ n) (hlt : n < yearDays (offset + 1)) :
    yearDays (searchYear n offset) ≤ n ∧ n < yearDays (searchYear n offset + 1) := by
  fun_induction searchYear n offset with
  | case1 => exact ⟨hn, hlt⟩
  | case2 offset hless ih => exact ih hless
  | case3 offset hle => exact ⟨not_lt.mp hle, hlt⟩

/-- A year has at least 365 days, so that the search starts at the year or later. -/
theorem searchYear_spec_of_div {n : ℤ} (hn : 0 ≤ n) (hlt : n < daysPerYearInterval) :
    searchYear n (n.tdiv 365).toNat < 400 ∧
      yearDays (searchYear n (n.tdiv 365).toNat) ≤ n ∧
        n < yearDays (searchYear n (n.tdiv 365).toNat + 1) := by
  simp only [daysPerYearInterval] at hlt
  rw [Int.tdiv_eq_ediv_of_nonneg hn]
  obtain ⟨offset, hoff⟩ : ∃ offset, offset = (n / 365).toNat := ⟨_, rfl⟩
  rw [← hoff]
  have hupper : ∀ i : ℕ, i ≤ 400 → n < 365 * i ∨ i = 400 → n < yearDays i := by
    intro i hi h
    rw [yearDays_eq hi]
    simp only [epochNumber, daysBeforeYear, epochYear]
    omega
  by_cases h400 : offset = 400
  · have hless : n < yearDays 400 := hupper 400 le_rfl (.inr rfl)
    have hstep : searchYear n offset = searchYear n 399 := by
      rw [h400, searchYear, if_pos hless]
    have hle := searchYear_le n 399
    rw [hstep]
    exact ⟨by omega, searchYear_spec hn hless⟩
  · have hle := searchYear_le n offset
    exact ⟨by omega, searchYear_spec hn (hupper (offset + 1) (by omega) (by omega))⟩

/-- The year is found that the day is in. -/
theorem extractYearOffset_spec (days : ℤ) :
    ∃ n year offset, extractYearOffset days = (n, year, offset) ∧ offset < 400 ∧
      yearDays offset ≤ n ∧ n < yearDays (offset + 1) ∧
      ∃ k : ℤ, year = epochYear + offset + 400 * k ∧ days = n + 146097 * k := by
  obtain ⟨k, h0, hk, hyear⟩ := raise_spec days epochYear
  obtain ⟨k', h0', hlt', hk', hyear'⟩ := lower_spec (raise days epochYear).2 h0
  obtain ⟨hoff, hle, hlt⟩ := searchYear_spec_of_div h0' hlt'
  refine ⟨_, _, _, rfl, hoff, hle, hlt, k + k', ?_, ?_⟩
  · simp only [yearInterval] at hyear hyear'
    omega
  · simp only [daysPerYearInterval] at hk hk'
    omega

/-- The tables of months for a year that is not a leap year. -/
theorem month_of_day : ∀ i : Fin 365,
    let m := monthPerDayOfYear.getD i 0
    1 ≤ m ∧ m ≤ 12 ∧ cumulativeDays.getD (m - 1) 0 ≤ i ∧ i < cumulativeDays.getD m 0 := by
  decide +kernel

/-- The same for leap years. -/
theorem month_of_leap_day : ∀ i : Fin 366,
    let m := leapMonthPerDayOfYear.getD i 0
    1 ≤ m ∧ m ≤ 12 ∧ cumulativeLeapDays.getD (m - 1) 0 ≤ i ∧
      i < cumulativeLeapDays.getD m 0 := by
  decide +kernel

/-- The tables have the days before each month. -/
theorem cumulativeDays_eq {y : ℤ} (hy : ¬IsLeap y) {m : ℕ} (hm : m ≤ 12) :
    cumulativeDays.getD m 0 = daysBeforeMonth y (m + 1) := by
  have h : ∀ m : Fin 13, cumulativeDays.getD m 0 = daysBeforeMonth 1970 (m + 1) := by decide
  rw [daysBeforeMonth_congr (iff_of_false hy (by decide : ¬IsLeap 1970))]
  exact h ⟨m, by omega⟩

theorem cumulativeLeapDays_eq {y : ℤ} (hy : IsLeap y) {m : ℕ} (hm : m ≤ 12) :
    cumulativeLeapDays.getD m 0 = daysBeforeMonth y (m + 1) := by
  have h : ∀ m : Fin 13, cumulativeLeapDays.getD m 0 = daysBeforeMonth 2000 (m + 1) := by decide
  rw [daysBeforeMonth_congr (iff_of_true hy (by decide : IsLeap 2000))]
  exact h ⟨m, by omega⟩

/-- `Date::Convert` finds the date of the calendar. -/
theorem convert_spec (days : ℤ) :
    ∃ d : Date, d.number = days + epochNumber ∧ convert days = (d.year, d.month, d.day) := by
  obtain ⟨n, year, offset, hx, hoff, hle, hlt, k, hyear, hdays⟩ := extractYearOffset_spec days
  have hnext : yearDays (offset + 1) - yearDays offset = daysInYear year := by
    have hsucc := daysBeforeYear_succ (epochYear + offset)
    have hadd := daysBeforeYear_add_mul (epochYear + offset) k
    have hadd' := daysBeforeYear_add_mul (epochYear + offset + 1) k
    have hsucc' := daysBeforeYear_succ year
    rw [yearDays_eq (by omega : offset + 1 ≤ 400), yearDays_eq (by omega : offset ≤ 400)]
    rw [show epochYear + ((offset + 1 : ℕ) : ℤ) = epochYear + offset + 1 by omega]
    rw [← hyear] at hadd
    rw [show epochYear + (offset : ℤ) + 1 + 400 * k = year + 1 by omega] at hadd'
    omega
  have hnumber : daysBeforeYear year + (n - yearDays offset) = days + epochNumber := by
    rw [hyear, daysBeforeYear_add_mul, yearDays_eq (by omega : offset ≤ 400), hdays]
    omega
  obtain ⟨day, hday⟩ : ∃ day : ℕ, n - yearDays offset = day :=
    ⟨(n - yearDays offset).toNat, by omega⟩
  unfold convert
  rw [hx]
  dsimp only
  rw [hnext, hday]
  rw [hday] at hnumber
  by_cases hleap : IsLeap year
  · rw [daysInYear, if_pos hleap, if_pos rfl, Int.toNat_natCast]
    rw [daysInYear, if_pos hleap] at hnext
    have hmonth := month_of_leap_day ⟨day, by omega⟩
    dsimp only at hmonth
    obtain ⟨m, hm⟩ : ∃ m, m = leapMonthPerDayOfYear.getD day 0 := ⟨_, rfl⟩
    rw [← hm] at hmonth ⊢
    obtain ⟨h1, h12, hfirst, hlast⟩ := hmonth
    rw [cumulativeLeapDays_eq hleap (by omega), Nat.sub_add_cancel h1] at hfirst ⊢
    rw [cumulativeLeapDays_eq hleap h12] at hlast
    exact ⟨.ofDay year m day ⟨h1, h12⟩ hfirst hlast, (Date.number_ofDay _ _ _).trans hnumber, rfl⟩
  · rw [daysInYear, if_neg hleap, if_neg (by decide), Int.toNat_natCast]
    rw [daysInYear, if_neg hleap] at hnext
    have hmonth := month_of_day ⟨day, by omega⟩
    dsimp only at hmonth
    obtain ⟨m, hm⟩ : ∃ m, m = monthPerDayOfYear.getD day 0 := ⟨_, rfl⟩
    rw [← hm] at hmonth ⊢
    obtain ⟨h1, h12, hfirst, hlast⟩ := hmonth
    rw [cumulativeDays_eq hleap (by omega), Nat.sub_add_cancel h1] at hfirst ⊢
    rw [cumulativeDays_eq hleap h12] at hlast
    exact ⟨.ofDay year m day ⟨h1, h12⟩ hfirst hlast, (Date.number_ofDay _ _ _).trans hnumber, rfl⟩

/-- `DaysToYear` has the days before a year. -/
theorem daysToYear_eq (year : ℤ) : daysToYear year = daysBeforeYear year - epochNumber := by
  have hepoch : epochYear = 1970 := rfl
  have hdays : daysPerYearInterval = 146097 := rfl
  unfold daysToYear
  dsimp only
  by_cases hbefore : year < epochYear
  · obtain ⟨i, hi⟩ : ∃ i : ℕ, (400 - (epochYear - year) % 400).toNat = i := ⟨_, rfl⟩
    have hadd := daysBeforeYear_add_mul (epochYear + i) (-(1 + (epochYear - year) / 400))
    rw [show epochYear + (i : ℤ) + 400 * -(1 + (epochYear - year) / 400) = year by omega] at hadd
    rw [if_pos hbefore, hi, yearDays_eq (by omega), hdays]
    omega
  · rw [if_neg hbefore]
    by_cases hafter : 2370 ≤ year
    · obtain ⟨i, hi⟩ : ∃ i : ℕ, ((year - 2370) % 400).toNat = i := ⟨_, rfl⟩
      have hadd := daysBeforeYear_add_mul (epochYear + i) (1 + (year - 2370) / 400)
      rw [show epochYear + (i : ℤ) + 400 * (1 + (year - 2370) / 400) = year by omega] at hadd
      rw [if_pos hafter, hi, yearDays_eq (by omega), hdays]
      omega
    · rw [if_neg hafter, yearDays_eq (by omega),
        show epochYear + ((year - epochYear).toNat : ℤ) = year by omega]

/-- The tables have the days of each month. -/
theorem daysInMonth_eq {y : ℤ} {m : ℕ} (hm : m ≤ 12) (hm' : 1 ≤ m) :
    (if IsLeap y then leapDays else normalDays).getD m 0 = daysInMonth y m := by
  have hleap : ∀ m : Fin 13, 1 ≤ m.val → leapDays.getD m 0 = daysInMonth 2000 m := by decide
  have hnormal : ∀ m : Fin 13, 1 ≤ m.val → normalDays.getD m 0 = daysInMonth 1970 m := by decide
  by_cases hy : IsLeap y
  · rw [if_pos hy, daysInMonth_congr (iff_of_true hy (by decide : IsLeap 2000))]
    exact hleap ⟨m, by omega⟩ hm'
  · rw [if_neg hy, daysInMonth_congr (iff_of_false hy (by decide : ¬IsLeap 1970))]
    exact hnormal ⟨m, by omega⟩ hm'

/-- A date of the calendar is valid if its year is in range. -/
theorem isValid_of_date (d : Date) (hlow : -5877641 < d.year) (hhigh : d.year < 5881580) :
    isValid d.year d.month d.day = true := by
  have := d.month_pos
  have := d.month_le
  have := d.day_pos
  unfold isValid
  rw [if_neg (by omega), if_neg (by omega), if_neg (by omega), if_neg (by omega),
    Int.toNat_natCast, daysInMonth_eq d.month_le d.month_pos]
  exact decide_eq_true d.day_le

/-- `TryFromDate` finds the day of a date. -/
theorem fromDate_of_date (d : Date) (hlow : -5877641 < d.year) (hhigh : d.year < 5881580) :
    fromDate d.year d.month d.day = .ok (d.number - epochNumber) := by
  have hmonth := d.month_le
  have hmpos := d.month_pos
  have hbefore : (if IsLeap d.year then cumulativeLeapDays else cumulativeDays).getD
      ((d.month : ℤ).toNat - 1) 0 = daysBeforeMonth d.year d.month := by
    rw [Int.toNat_natCast]
    by_cases hleap : IsLeap d.year
    · rw [if_pos hleap, cumulativeLeapDays_eq hleap (by omega), Nat.sub_add_cancel hmpos]
    · rw [if_neg hleap, cumulativeDays_eq hleap (by omega), Nat.sub_add_cancel hmpos]
  unfold fromDate tryFromDate
  rw [if_pos (isValid_of_date d hlow hhigh), hbefore, daysToYear_eq]
  simp only [Date.number, Except.ok.injEq]
  omega

end EngineDate

/-! ## Times -/

namespace EngineTime

/-- `Time::Convert` : hours, minutes, seconds and microseconds. -/
def convert (micros : ℤ) : ℤ × ℤ × ℤ × ℤ :=
  let hour := i32.wrap (micros.tdiv microsPerHour)
  let time := micros - hour * microsPerHour
  let min := i32.wrap (time.tdiv microsPerMinute)
  let time := time - min * microsPerMinute
  let sec := i32.wrap (time.tdiv microsPerSec)
  let time := time - sec * microsPerSec
  (hour, min, sec, i32.wrap time)

/-- `Time::FromTime`. -/
def fromTime (hour minute second micros : ℤ) : ℤ :=
  ((hour * minsPerHour + minute) * secsPerMinute + second) * microsPerSec + micros

/-- A time of up to a day is taken apart exactly. -/
theorem convert_spec {micros : ℤ} (h0 : 0 ≤ micros) (hle : micros ≤ microsPerDay) :
    convert micros = (micros / microsPerHour, micros % microsPerHour / microsPerMinute,
      micros % microsPerMinute / microsPerSec, micros % microsPerSec) := by
  have hwrap : ∀ n : ℤ, 0 ≤ n → n < 2 ^ 31 → i32.wrap n = n := fun n hn hlt =>
    IntType.wrap_of_fits (by decide) (fits_i32.mpr ⟨by omega, hlt⟩)
  simp only [microsPerDay] at hle
  unfold convert
  simp only [microsPerHour, microsPerMinute, microsPerSec]
  rw [Int.tdiv_eq_ediv_of_nonneg h0, hwrap (micros / 3600000000) (by omega) (by omega)]
  have hrest : micros - micros / 3600000000 * 3600000000 = micros % 3600000000 := by omega
  rw [hrest, Int.tdiv_eq_ediv_of_nonneg (by omega),
    hwrap (micros % 3600000000 / 60000000) (by omega) (by omega)]
  have hrest : micros % 3600000000 - micros % 3600000000 / 60000000 * 60000000 =
      micros % 60000000 := by omega
  rw [hrest, Int.tdiv_eq_ediv_of_nonneg (by omega),
    hwrap (micros % 60000000 / 1000000) (by omega) (by omega)]
  have hrest : micros % 60000000 - micros % 60000000 / 1000000 * 1000000 = micros % 1000000 := by
    omega
  rw [hrest, hwrap (micros % 1000000) (by omega) (by omega)]

end EngineTime

/-! ## Timestamps -/

namespace EngineTimestamp

/-- `timestamp_t::infinity`, and with a minus sign `timestamp_t::ninfinity`. -/
def infinity : ℤ := 2 ^ 63 - 1

/-- `Timestamp::IsFinite`. -/
def IsFinite (value : ℤ) : Prop := value ≠ infinity ∧ value ≠ -infinity

instance (value : ℤ) : Decidable (IsFinite value) := by
  unfold IsFinite
  infer_instance

/-- `TryMultiplyOperator` on 64 bits. -/
def tryMultiply (a b : ℤ) : Option ℤ := if i64.Fits (a * b) then some (a * b) else none

/-- `FromEpochSeconds`. -/
def fromEpochSeconds (sec : ℤ) : Except String ℤ :=
  match tryMultiply sec microsPerSec with
  | some result => .ok result
  | none => .error "Could not convert Timestamp(S) to Timestamp(US)"

/-- `FromEpochMs`. -/
def fromEpochMs (ms : ℤ) : Except String ℤ :=
  match tryMultiply ms 1000 with
  | some result => .ok result
  | none => .error "Could not convert Timestamp(MS) to Timestamp(US)"

/-- `FromEpochMicroSeconds`. -/
def fromEpochMicroSeconds (micros : ℤ) : Except String ℤ := .ok micros

/-- `FromEpochNanoSeconds`, which rounds towards zero. -/
def fromEpochNanoSeconds (ns : ℤ) : Except String ℤ := .ok (ns.tdiv 1000)

/-- `Timestamp::GetDate`. -/
def getDate (timestamp : ℤ) : ℤ :=
  if timestamp = infinity then EngineDate.infinity
  else if timestamp = -infinity then -EngineDate.infinity
  else
    let negative : ℤ := if timestamp < 0 then 1 else 0
    i32.wrap ((timestamp + negative).tdiv microsPerDay - negative)

/-- `Timestamp::GetTime`. -/
def getTime (timestamp : ℤ) : Except String ℤ :=
  if IsFinite timestamp then .ok (timestamp - getDate timestamp * microsPerDay)
  else .error "Can't get TIME of infinite TIMESTAMP"

/-- `Timestamp::TryFromDatetime`. -/
def tryFromDatetime (date time : ℤ) : Option ℤ := do
  let result ← tryMultiply date microsPerDay
  if i64.Fits (result + time) ∧ IsFinite (result + time) then some (result + time) else none

/-- `Timestamp::FromDatetime`. -/
def fromDatetime (date time : ℤ) : Except String ℤ :=
  match tryFromDatetime date time with
  | some result => .ok result
  | none => .error "Date and time not in timestamp range"

/-- The engine's cast of a date to a timestamp. -/
def tryCastDate (date : ℤ) : Option ℤ :=
  if date = EngineDate.infinity then some infinity
  else if date = -EngineDate.infinity then some (-infinity)
  else tryFromDatetime date 0

/-- The day of a timestamp, before the epoch as well. -/
theorem getDate_of_finite {timestamp : ℤ} (h64 : i64.Fits timestamp) (h : IsFinite timestamp) :
    getDate timestamp = timestamp / microsPerDay := by
  obtain ⟨h0, hlt⟩ := fits_i64.mp h64
  have hday : (timestamp + if timestamp < 0 then 1 else 0).tdiv microsPerDay -
      (if timestamp < 0 then 1 else 0) = timestamp / microsPerDay := by
    simp only [microsPerDay]
    by_cases hneg : timestamp < 0
    · rw [if_pos hneg]
      have hdiv := Int.neg_tdiv (-(timestamp + 1)) 86400000000
      rw [neg_neg, Int.tdiv_eq_ediv_of_nonneg (by omega : 0 ≤ -(timestamp + 1))] at hdiv
      omega
    · rw [if_neg hneg, Int.tdiv_eq_ediv_of_nonneg (by omega)]
      omega
  rw [getDate, if_neg h.1, if_neg h.2]
  dsimp only
  rw [hday]
  refine IntType.wrap_of_fits (by decide) (fits_i32.mpr ?_)
  simp only [microsPerDay]
  omega

/-- The time of a finite timestamp is what is left of its day. -/
theorem getTime_of_finite {timestamp : ℤ} (h64 : i64.Fits timestamp) (h : IsFinite timestamp) :
    getTime timestamp = .ok (timestamp % microsPerDay) := by
  rw [getTime, if_pos h, getDate_of_finite h64 h]
  have := Int.mul_ediv_add_emod timestamp microsPerDay
  congr 1
  rw [mul_comm]
  omega

end EngineTimestamp

end HaybarnOdbc
