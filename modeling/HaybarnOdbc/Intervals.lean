import HaybarnOdbc.Lib.MachineInt
import HaybarnOdbc.Types

/-!
# Intervals

`odbc_interval.cpp` and the interval branches of `GetDataStmtResult` : an interval of the
engine (months, days, microseconds) is split over the fields of a `SQL_INTERVAL_STRUCT`.
The setters call each other : a coarser one leaves what it did not use in `fraction`, and
the next one divides that. Every conversion to a type of the source is one of
`MachineInt.Calc`, so that a setter is `Exact` when nothing on its way wraps.
-/

namespace HaybarnOdbc

open MachineInt MachineInt.Calc

/-- `interval_t`. -/
structure Interval where
  months : ℤ
  days : ℤ
  micros : ℤ
  months_fits : i32.Fits months
  days_fits : i32.Fits days
  micros_fits : i64.Fits micros

/-- `SQL_INTERVAL_STRUCT`. Its `intval` is a union : `year_month.year` lies over `day` and
`year_month.month` over `hour`. -/
structure SqlIntervalStruct where
  intervalType : IntervalType
  intervalSign : Bool
  day : ℤ
  hour : ℤ
  minute : ℤ
  second : ℤ
  fraction : ℤ
  deriving DecidableEq, Repr

/-! ## Constants of the engine -/

/-- `Interval::MONTHS_PER_YEAR`. -/
def monthsPerYear : ℤ := 12

/-- `Interval::DAYS_PER_MONTH`. -/
def daysPerMonth : ℤ := 30

/-- `Interval::HOURS_PER_DAY`. -/
def hoursPerDay : ℤ := 24

/-- `Interval::MINS_PER_HOUR`. -/
def minsPerHour : ℤ := 60

/-- `Interval::SECS_PER_MINUTE`. -/
def secsPerMinute : ℤ := 60

/-- `Interval::MICROS_PER_SEC`. -/
def microsPerSec : ℤ := 1000000

/-- `Interval::MICROS_PER_MINUTE`. -/
def microsPerMinute : ℤ := 60000000

/-- `Interval::MICROS_PER_HOUR`. -/
def microsPerHour : ℤ := 3600000000

/-- `Interval::MICROS_PER_DAY`. -/
def microsPerDay : ℤ := 86400000000

/-! ## The setters -/

namespace OdbcInterval

variable (iv : Interval)

/-- `std::abs(interval.micros)`. -/
def absMicros : Calc ℤ := conv i64 iv.micros.natAbs

/-- `SetSignal` : the sign of the coarsest part that is not zero. -/
def setSignal (s : SqlIntervalStruct) : SqlIntervalStruct :=
  if iv.months ≠ 0 then { s with intervalSign := iv.months < 0 }
  else if iv.days ≠ 0 then { s with intervalSign := iv.days < 0 }
  else { s with intervalSign := iv.micros < 0 }

/-- `SetYear`. -/
def setYear (s : SqlIntervalStruct) : Calc SqlIntervalStruct := do
  let months ← conv i32 iv.months.natAbs
  let year ← conv u32 (months.tdiv monthsPerYear)
  return { s with intervalType := .year, day := year }

/-- `SetMonth`. -/
def setMonth (s : SqlIntervalStruct) : Calc SqlIntervalStruct := do
  let months ← conv i32 iv.months.natAbs
  let month ← conv u32 months
  return { s with intervalType := .month, hour := month }

/-- `SetDay`. The engine's number of days per month has 64 bits, and so has the sum. -/
def setDay (s : SqlIntervalStruct) : Calc SqlIntervalStruct := do
  let months ← conv i64 (iv.months * daysPerMonth)
  let days ← conv i64 (iv.days + months)
  let days ← conv i64 days.natAbs
  let day ← conv u32 days
  return { s with intervalType := .day, day }

/-- `SetHour`. -/
def setHour (s : SqlIntervalStruct) : Calc SqlIntervalStruct := do
  let s ← setDay iv s
  let hour ← conv u32 (s.day * hoursPerDay)
  let micros ← absMicros iv
  let hours ← conv u32 (micros.tdiv microsPerHour)
  let hour ← conv u32 (hour + hours)
  let micros ← absMicros iv
  let fraction ← conv u32 (micros.tmod microsPerHour)
  return { s with intervalType := .hour, hour, fraction }

/-- `SetMinute`. -/
def setMinute (s : SqlIntervalStruct) : Calc SqlIntervalStruct := do
  let s ← setHour iv s
  let minute ← conv u32 (s.hour * minsPerHour)
  let minute ← conv u32 (minute + s.fraction.tdiv microsPerMinute)
  let fraction ← conv u32 (s.fraction.tmod microsPerMinute)
  return { s with intervalType := .minute, minute, fraction }

/-- `SetSecond`. The seconds of `micros` are added to `fraction`, which is then
overwritten, and not to `second`. -/
def setSecond (s : SqlIntervalStruct) : Calc SqlIntervalStruct := do
  let s ← setMinute iv s
  let second ← conv u32 (s.minute * secsPerMinute)
  let micros ← absMicros iv
  let seconds ← conv u32 (micros.tdiv microsPerSec)
  let _ ← conv u32 (s.fraction + seconds)
  let micros ← absMicros iv
  let fraction ← conv u32 (micros.tmod microsPerSec)
  return { s with intervalType := .second, second, fraction }

/-- The year and month of `SQL_C_INTERVAL_YEAR_TO_MONTH`. -/
def setYearToMonth (s : SqlIntervalStruct) : Calc SqlIntervalStruct := do
  let s ← setYear iv s
  let months ← conv i32 iv.months.natAbs
  let month ← conv u32 (months.tmod monthsPerYear)
  return { s with intervalType := .yearToMonth, hour := month }

/-- `SetDayToHour`. -/
def setDayToHour (s : SqlIntervalStruct) : Calc SqlIntervalStruct := do
  let s ← setDay iv s
  let micros ← absMicros iv
  let hour ← conv u32 (micros.tdiv microsPerHour)
  let micros ← absMicros iv
  let fraction ← conv u32 (micros.tmod microsPerHour)
  return { s with intervalType := .dayToHour, hour, fraction }

/-- The minutes of `fraction`, and what remains. -/
def splitMinutes (q : IntervalType) (s : SqlIntervalStruct) : Calc SqlIntervalStruct := do
  let minute ← conv u32 (s.fraction.tdiv microsPerMinute)
  let fraction ← conv u32 (s.fraction.tmod microsPerMinute)
  return { s with intervalType := q, minute, fraction }

/-- The seconds of `fraction`, and what remains. -/
def splitSeconds (q : IntervalType) (s : SqlIntervalStruct) : Calc SqlIntervalStruct := do
  let second ← conv u32 (s.fraction.tdiv microsPerSec)
  let fraction ← conv u32 (s.fraction.tmod microsPerSec)
  return { s with intervalType := q, second, fraction }

/-- `SetDayToMinute`. -/
def setDayToMinute (s : SqlIntervalStruct) : Calc SqlIntervalStruct := do
  let s ← setDayToHour iv s
  splitMinutes .dayToMinute s

/-- `SetDayToSecond`. -/
def setDayToSecond (s : SqlIntervalStruct) : Calc SqlIntervalStruct := do
  let s ← setDayToMinute iv s
  splitSeconds .dayToSecond s

/-- `SetHourToMinute`. -/
def setHourToMinute (s : SqlIntervalStruct) : Calc SqlIntervalStruct := do
  let s ← setHour iv s
  splitMinutes .hourToMinute s

/-- `SetHourToSecond`. -/
def setHourToSecond (s : SqlIntervalStruct) : Calc SqlIntervalStruct := do
  let s ← setHourToMinute iv s
  splitSeconds .hourToSecond s

/-- `SetMinuteToSecond`. -/
def setMinuteToSecond (s : SqlIntervalStruct) : Calc SqlIntervalStruct := do
  let s ← setMinute iv s
  splitSeconds .minuteToSecond s

/-- The setter of a C type. -/
def set : IntervalType → SqlIntervalStruct → Calc SqlIntervalStruct
  | .year => setYear iv
  | .month => setMonth iv
  | .day => setDay iv
  | .hour => setHour iv
  | .minute => setMinute iv
  | .second => setSecond iv
  | .yearToMonth => setYearToMonth iv
  | .dayToHour => setDayToHour iv
  | .dayToMinute => setDayToMinute iv
  | .dayToSecond => setDayToSecond iv
  | .hourToMinute => setHourToMinute iv
  | .hourToSecond => setHourToSecond iv
  | .minuteToSecond => setMinuteToSecond iv

end OdbcInterval

/-! ## Reading a cell as an interval -/

/-- A value that is not null, as far as the interval branches tell values apart. -/
inductive IntervalSource
  | interval (iv : Interval)
  | varchar (text : String)
  | other (typeName : String)

/-- The name of the type of the value, as error messages have it. -/
def IntervalSource.typeName : IntervalSource → String
  | .interval _ => "INTERVAL"
  | .varchar _ => "VARCHAR"
  | .other typeName => typeName

/-- `ThrowInvalidCast`. -/
def throwInvalidCast (component fromType toType : String) : DiagRecord :=
  ⟨component, "Not implemented Error: Unimplemented type for cast (" ++ fromType ++ " -> " ++
    toType ++ ")", .st22007⟩

/-- `OdbcInterval::GetInterval`. The text of a `VARCHAR` is parsed by the engine, which
also words the error. -/
def OdbcInterval.getInterval (tryCast : String → Except String Interval) :
    IntervalSource → Except (List DiagRecord) Interval
  | .interval iv => .ok iv
  | .varchar text =>
    (tryCast text).mapError fun msg => [⟨"OdbcInterval::GetInterval", msg, .st22007⟩]
  | .other _ => .error []

/-- The interval branches of `GetDataStmtResult` : the struct in the application's memory
afterwards, or the diagnostics of the call that failed. -/
def getIntervalData (tryCast : String → Except String Interval) (val : IntervalSource)
    (q : IntervalType) (target : SqlIntervalStruct) :
    Except (List DiagRecord) (Calc SqlIntervalStruct) :=
  match OdbcInterval.getInterval tryCast val with
  | .error records =>
    .error (records ++ [throwInvalidCast "GetDataStmtResult" val.typeName "INTERVAL"])
  | .ok iv => .ok do
    let s ← OdbcInterval.set iv q target
    return OdbcInterval.setSignal iv s

/-! ## What the setters compute -/

namespace Interval

/-- The days of an interval, with months of 30 days, without the sign. -/
def totalDays (iv : Interval) : ℤ := (iv.days + iv.months * daysPerMonth).natAbs

/-- The microseconds of an interval, without the sign. -/
def totalMicros (iv : Interval) : ℤ := iv.micros.natAbs

theorem totalDays_nonneg (iv : Interval) : 0 ≤ iv.totalDays := Int.natCast_nonneg _

theorem totalMicros_nonneg (iv : Interval) : 0 ≤ iv.totalMicros := Int.natCast_nonneg _

/-- The microseconds fit but for the lowest number. -/
theorem totalMicros_le {iv : Interval} (h : -2 ^ 63 < iv.micros) : iv.totalMicros < 2 ^ 63 := by
  have hm := fits_i64.mp iv.micros_fits
  simp only [totalMicros]
  omega

end Interval

namespace OdbcInterval

variable {iv : Interval} {s : SqlIntervalStruct}

/-- Their absolute value is exact then. -/
theorem exact_absMicros (h : -2 ^ 63 < iv.micros) : Exact (absMicros iv) iv.totalMicros := by
  have hm := fits_i64.mp iv.micros_fits
  have hfits : i64.Fits iv.micros.natAbs := fits_i64.mpr (by omega)
  exact exact_conv (by decide) hfits

/-- A day target is exact if the days fit. -/
theorem exact_setDay (hd : iv.totalDays < 2 ^ 32) :
    Exact (setDay iv s) { s with intervalType := .day, day := iv.totalDays } := by
  have hmf := fits_i32.mp iv.months_fits
  have hdf := fits_i32.mp iv.days_fits
  simp only [Interval.totalDays, daysPerMonth] at hd
  refine .conv_bind (by decide) (fits_i64.mpr ?_) ?_
  · simp only [daysPerMonth]
    omega
  refine .conv_bind (by decide) (fits_i64.mpr ?_) ?_
  · simp only [daysPerMonth]
    omega
  refine .conv_bind (by decide) (fits_i64.mpr ?_) ?_
  · simp only [daysPerMonth]
    omega
  refine .conv_bind (by decide) (fits_u32.mpr ?_) (exact_pure _)
  simp only [daysPerMonth]
  omega

/-- An hour target is exact if the hours fit. -/
theorem exact_setHour (hm : -2 ^ 63 < iv.micros)
    (hh : iv.totalDays * 24 + iv.totalMicros / microsPerHour < 2 ^ 32) :
    Exact (setHour iv s)
      { s with
        intervalType := .hour, day := iv.totalDays
        hour := iv.totalDays * 24 + iv.totalMicros / microsPerHour
        fraction := iv.totalMicros % microsPerHour } := by
  have h0 := iv.totalMicros_nonneg
  have hd := iv.totalDays_nonneg
  simp only [microsPerHour] at hh
  have hdiv : iv.totalMicros.tdiv microsPerHour = iv.totalMicros / microsPerHour :=
    Int.tdiv_eq_ediv_of_nonneg h0
  have hmod : iv.totalMicros.tmod microsPerHour = iv.totalMicros % microsPerHour :=
    Int.tmod_eq_emod_of_nonneg h0
  refine (exact_setDay (by omega)).bind ?_
  refine .conv_bind (by decide) (fits_u32.mpr ?_) ?_
  · simp only [hoursPerDay]
    omega
  refine (exact_absMicros hm).bind ?_
  rw [hdiv]
  refine .conv_bind (by decide) (fits_u32.mpr ?_) ?_
  · simp only [microsPerHour]
    omega
  refine .conv_bind (by decide) (fits_u32.mpr ?_) ?_
  · simp only [microsPerHour, hoursPerDay]
    omega
  refine (exact_absMicros hm).bind ?_
  rw [hmod]
  refine .conv_bind (by decide) (fits_u32.mpr ?_) (exact_pure _)
  simp only [microsPerHour]
  omega

/-- A day-to-hour target is exact if the days fit. -/
theorem exact_setDayToHour (hm : -2 ^ 63 < iv.micros) (hd : iv.totalDays < 2 ^ 32) :
    Exact (setDayToHour iv s)
      { s with
        intervalType := .dayToHour, day := iv.totalDays
        hour := iv.totalMicros / microsPerHour
        fraction := iv.totalMicros % microsPerHour } := by
  have h0 := iv.totalMicros_nonneg
  have hlt := Interval.totalMicros_le hm
  have hdiv : iv.totalMicros.tdiv microsPerHour = iv.totalMicros / microsPerHour :=
    Int.tdiv_eq_ediv_of_nonneg h0
  have hmod : iv.totalMicros.tmod microsPerHour = iv.totalMicros % microsPerHour :=
    Int.tmod_eq_emod_of_nonneg h0
  refine (exact_setDay hd).bind ((exact_absMicros hm).bind ?_)
  rw [hdiv]
  refine .conv_bind (by decide) (fits_u32.mpr ?_) ((exact_absMicros hm).bind ?_)
  · simp only [microsPerHour]
    omega
  rw [hmod]
  refine .conv_bind (by decide) (fits_u32.mpr ?_) (exact_pure _)
  simp only [microsPerHour]
  omega

/-- A minute target is exact if the minutes fit. -/
theorem exact_setMinute (hm : -2 ^ 63 < iv.micros)
    (hmin : iv.totalDays * 1440 + iv.totalMicros / microsPerMinute < 2 ^ 32) :
    Exact (setMinute iv s)
      { s with
        intervalType := .minute, day := iv.totalDays
        hour := iv.totalDays * 24 + iv.totalMicros / microsPerHour
        minute := iv.totalDays * 1440 + iv.totalMicros / microsPerMinute
        fraction := iv.totalMicros % microsPerMinute } := by
  have h0 := iv.totalMicros_nonneg
  have hd := iv.totalDays_nonneg
  have hdiv : (iv.totalMicros % microsPerHour).tdiv microsPerMinute =
      iv.totalMicros % microsPerHour / microsPerMinute :=
    Int.tdiv_eq_ediv_of_nonneg (Int.emod_nonneg _ (by decide))
  have hmod : (iv.totalMicros % microsPerHour).tmod microsPerMinute =
      iv.totalMicros % microsPerHour % microsPerMinute :=
    Int.tmod_eq_emod_of_nonneg (Int.emod_nonneg _ (by decide))
  have hsum : (iv.totalDays * 24 + iv.totalMicros / microsPerHour) * minsPerHour +
      iv.totalMicros % microsPerHour / microsPerMinute =
        iv.totalDays * 1440 + iv.totalMicros / microsPerMinute := by
    simp only [microsPerHour, microsPerMinute, minsPerHour]
    omega
  have hrest : iv.totalMicros % microsPerHour % microsPerMinute =
      iv.totalMicros % microsPerMinute := by
    simp only [microsPerHour, microsPerMinute]
    omega
  refine (exact_setHour hm ?_).bind ?_
  · simp only [microsPerHour, microsPerMinute] at *
    omega
  refine .conv_bind (by decide) (fits_u32.mpr ?_) ?_
  · simp only [microsPerHour, microsPerMinute, minsPerHour] at *
    omega
  dsimp only
  rw [hdiv, hmod, hsum, hrest]
  refine .conv_bind (by decide) (fits_u32.mpr ?_) ?_
  · simp only [microsPerMinute] at *
    omega
  refine .conv_bind (by decide) (fits_u32.mpr ?_) (exact_pure _)
  simp only [microsPerMinute]
  omega

/-- Whatever is left in `fraction`, the minutes and what remains of it fit. -/
theorem exact_splitMinutes {q : IntervalType} (hf : u32.Fits s.fraction) :
    Exact (splitMinutes q s)
      { s with
        intervalType := q, minute := s.fraction / microsPerMinute
        fraction := s.fraction % microsPerMinute } := by
  obtain ⟨h0, hlt⟩ := fits_u32.mp hf
  unfold splitMinutes
  rw [Int.tdiv_eq_ediv_of_nonneg h0, Int.tmod_eq_emod_of_nonneg h0]
  refine .conv_bind (by decide) (fits_u32.mpr ?_) ?_
  · simp only [microsPerMinute]
    omega
  refine .conv_bind (by decide) (fits_u32.mpr ?_) (exact_pure _)
  simp only [microsPerMinute]
  omega

/-- Seconds are split off exactly. -/
theorem exact_splitSeconds {q : IntervalType} (hf : u32.Fits s.fraction) :
    Exact (splitSeconds q s)
      { s with
        intervalType := q, second := s.fraction / microsPerSec
        fraction := s.fraction % microsPerSec } := by
  obtain ⟨h0, hlt⟩ := fits_u32.mp hf
  unfold splitSeconds
  rw [Int.tdiv_eq_ediv_of_nonneg h0, Int.tmod_eq_emod_of_nonneg h0]
  refine .conv_bind (by decide) (fits_u32.mpr ?_) ?_
  · simp only [microsPerSec]
    omega
  refine .conv_bind (by decide) (fits_u32.mpr ?_) (exact_pure _)
  simp only [microsPerSec]
  omega

end OdbcInterval

/-! ## Recombination -/

/-- A field of `day_second` other than `fraction`. -/
inductive IntervalPart
  | day
  | hour
  | minute
  | second
  deriving DecidableEq, Repr

namespace IntervalPart

/-- A unit of the field, in microseconds. -/
def micros : IntervalPart → ℤ
  | day => microsPerDay
  | hour => microsPerHour
  | minute => microsPerMinute
  | second => microsPerSec

/-- The field of a part. -/
def get (s : SqlIntervalStruct) : IntervalPart → ℤ
  | day => s.day
  | hour => s.hour
  | minute => s.minute
  | second => s.second

/-- What the field has to hold when it leads : a day is never made of hours. -/
def leadingValue (iv : Interval) : IntervalPart → ℤ
  | day => iv.totalDays
  | p => (iv.totalDays * microsPerDay + iv.totalMicros) / p.micros

end IntervalPart

/-- The fields of the forms whose parts are days, hours, minutes and seconds, except those
of one field of days or seconds. -/
def IntervalType.dayTimeParts : IntervalType → List IntervalPart
  | .dayToHour => [.day, .hour]
  | .dayToMinute => [.day, .hour, .minute]
  | .dayToSecond => [.day, .hour, .minute, .second]
  | .hour => [.hour]
  | .hourToMinute => [.hour, .minute]
  | .hourToSecond => [.hour, .minute, .second]
  | .minute => [.minute]
  | .minuteToSecond => [.minute, .second]
  | _ => []

/-- The fields of a struct say how long the interval is. -/
structure Recombines (iv : Interval) (parts : List IntervalPart) (s : SqlIntervalStruct) :
    Prop where
  total : (parts.map fun p => p.get s * p.micros).sum + s.fraction =
    iv.totalDays * microsPerDay + iv.totalMicros
  fields_fit : ∀ p ∈ parts, u32.Fits (p.get s)
  below_sixty : ∀ p ∈ parts.tail, p ≠ .hour → p.get s < 60
  fraction_fits : u32.Fits s.fraction
  fraction_lt : ∀ p ∈ parts.getLast?, s.fraction < p.micros

theorem IntervalPart.micros_pos (p : IntervalPart) : 0 < p.micros := by
  cases p <;> decide

/-- Splitting `fraction` into a finer field and what remains of it keeps the total. -/
theorem Recombines.split {iv : Interval} {parts : List IntervalPart} {s s' : SqlIntervalStruct}
    {c p : IntervalPart} (h : Recombines iv parts s) (hlast : parts.getLast? = some c)
    (hcp : c.micros = p.micros * 60) (hp : p ∉ parts) (hkeep : ∀ p' ≠ p, p'.get s' = p'.get s)
    (hnew : p.get s' = s.fraction / p.micros) (hfrac : s'.fraction = s.fraction % p.micros) :
    Recombines iv (parts ++ [p]) s' := by
  have hpos := p.micros_pos
  obtain ⟨h0, hlt⟩ := fits_u32.mp h.fraction_fits
  have hunit : s.fraction < c.micros := h.fraction_lt c hlast
  have hold : ∀ p' ∈ parts, p'.get s' = p'.get s := fun p' hp' => hkeep p' fun e => hp (e ▸ hp')
  have hsixty : s.fraction / p.micros < 60 := by
    rw [hcp, mul_comm] at hunit
    exact Int.ediv_lt_of_lt_mul hpos hunit
  have hne : parts ≠ [] := by
    rintro rfl
    cases hlast
  refine
    { total := ?total, fields_fit := ?fields, below_sixty := ?sixty, fraction_fits := ?fits
      fraction_lt := ?lt }
  case total =>
    have hsum : (parts.map fun p => p.get s' * p.micros) = parts.map fun p => p.get s * p.micros :=
      List.map_congr_left fun p' hp' => by rw [hold p' hp']
    have hdiv := Int.mul_ediv_add_emod s.fraction p.micros
    have htotal := h.total
    rw [List.map_append, List.sum_append, hsum, List.map_singleton, List.sum_singleton, hnew,
      hfrac, mul_comm (s.fraction / p.micros)]
    omega
  case fields =>
    intro p' hp'
    obtain hp' | hp' := List.mem_append.mp hp'
    · rw [hold p' hp']
      exact h.fields_fit p' hp'
    · rw [List.mem_singleton.mp hp', hnew]
      have := Int.ediv_nonneg h0 hpos.le
      exact fits_u32.mpr (by omega)
  case sixty =>
    intro p' hp' hhour
    rw [List.tail_append_of_ne_nil hne] at hp'
    obtain hp' | hp' := List.mem_append.mp hp'
    · rw [hold p' (List.mem_of_mem_tail hp')]
      exact h.below_sixty p' hp' hhour
    · rw [List.mem_singleton.mp hp', hnew]
      exact hsixty
  case fits =>
    have hdiv := Int.mul_ediv_add_emod s.fraction p.micros
    have := Int.emod_nonneg s.fraction hpos.ne'
    have := mul_nonneg hpos.le (Int.ediv_nonneg h0 hpos.le)
    rw [hfrac]
    exact fits_u32.mpr (by omega)
  case lt =>
    intro p' hp'
    rw [List.getLast?_concat, Option.mem_some_iff] at hp'
    rw [← hp', hfrac]
    exact Int.emod_lt_of_pos _ hpos

section Base

variable {iv : Interval} {s : SqlIntervalStruct}

/-- Days and hours recombine. -/
theorem recombines_day_hour (hm : -2 ^ 63 < iv.micros) (hd : iv.totalDays < 2 ^ 32)
    (hday : s.day = iv.totalDays) (hhour : s.hour = iv.totalMicros / microsPerHour)
    (hfrac : s.fraction = iv.totalMicros % microsPerHour) : Recombines iv [.day, .hour] s := by
  have h0 := iv.totalMicros_nonneg
  have hlt := Interval.totalMicros_le hm
  have hd0 := iv.totalDays_nonneg
  simp only [microsPerHour] at hhour hfrac
  constructor
  · simp [IntervalPart.get, IntervalPart.micros, microsPerDay, microsPerHour]
    omega
  · simp [IntervalPart.get, fits_u32]
    omega
  · simp
  · exact fits_u32.mpr (by omega)
  · simp [IntervalPart.micros, microsPerHour]
    omega

/-- Hours recombine. -/
theorem recombines_hour
    (hh : iv.totalDays * 24 + iv.totalMicros / microsPerHour < 2 ^ 32)
    (hhour : s.hour = iv.totalDays * 24 + iv.totalMicros / microsPerHour)
    (hfrac : s.fraction = iv.totalMicros % microsPerHour) : Recombines iv [.hour] s := by
  have h0 := iv.totalMicros_nonneg
  have hd0 := iv.totalDays_nonneg
  simp only [microsPerHour] at hh hhour hfrac
  constructor
  · simp [IntervalPart.get, IntervalPart.micros, microsPerDay, microsPerHour]
    omega
  · simp [IntervalPart.get, fits_u32]
    omega
  · simp
  · exact fits_u32.mpr (by omega)
  · simp [IntervalPart.micros, microsPerHour]
    omega

/-- Minutes recombine. -/
theorem recombines_minute
    (hmin : iv.totalDays * 1440 + iv.totalMicros / microsPerMinute < 2 ^ 32)
    (hminute : s.minute = iv.totalDays * 1440 + iv.totalMicros / microsPerMinute)
    (hfrac : s.fraction = iv.totalMicros % microsPerMinute) : Recombines iv [.minute] s := by
  have h0 := iv.totalMicros_nonneg
  have hd0 := iv.totalDays_nonneg
  simp only [microsPerMinute] at hmin hminute hfrac
  constructor
  · simp [IntervalPart.get, IntervalPart.micros, microsPerDay, microsPerMinute]
    omega
  · simp [IntervalPart.get, fits_u32]
    omega
  · simp
  · exact fits_u32.mpr (by omega)
  · simp [IntervalPart.micros, microsPerMinute]
    omega

/-- Minutes that are split off recombine. -/
theorem Recombines.splitMinutes {parts : List IntervalPart} {q : IntervalType}
    (h : Recombines iv parts s) (hlast : parts.getLast? = some .hour) (hp : .minute ∉ parts) :
    Recombines iv (parts ++ [.minute])
      { s with
        intervalType := q, minute := s.fraction / microsPerMinute
        fraction := s.fraction % microsPerMinute } := by
  refine h.split hlast rfl hp ?_ rfl rfl
  rintro (_ | _ | _ | _) hne
  · rfl
  · rfl
  · exact absurd rfl hne
  · rfl

/-- So do seconds. -/
theorem Recombines.splitSeconds {parts : List IntervalPart} {q : IntervalType}
    (h : Recombines iv parts s) (hlast : parts.getLast? = some .minute) (hp : .second ∉ parts) :
    Recombines iv (parts ++ [.second])
      { s with
        intervalType := q, second := s.fraction / microsPerSec
        fraction := s.fraction % microsPerSec } := by
  refine h.split hlast rfl hp ?_ rfl rfl
  rintro (_ | _ | _ | _) hne
  · rfl
  · rfl
  · rfl
  · exact absurd rfl hne

end Base

namespace OdbcInterval

variable {iv : Interval} {s : SqlIntervalStruct}

/-- The setter ends exactly in a struct that says how long the interval is. -/
def Splits (iv : Interval) (q : IntervalType) (x : Calc SqlIntervalStruct) : Prop :=
  ∃ r, Exact x r ∧ r.intervalType = q ∧ Recombines iv q.dayTimeParts r

/-- A target with hours is split further into minutes. -/
theorem Splits.splitMinutes {q q' : IntervalType} {x : Calc SqlIntervalStruct}
    (h : Splits iv q x) (hlast : q.dayTimeParts.getLast? = some .hour)
    (hp : .minute ∉ q.dayTimeParts) (hq' : q'.dayTimeParts = q.dayTimeParts ++ [.minute]) :
    Splits iv q' (x >>= OdbcInterval.splitMinutes q') := by
  obtain ⟨r, hx, -, hr⟩ := h
  exact ⟨_, hx.bind (exact_splitMinutes hr.fraction_fits), rfl, hq' ▸ hr.splitMinutes hlast hp⟩

/-- One with minutes is split further into seconds. -/
theorem Splits.splitSeconds {q q' : IntervalType} {x : Calc SqlIntervalStruct}
    (h : Splits iv q x) (hlast : q.dayTimeParts.getLast? = some .minute)
    (hp : .second ∉ q.dayTimeParts) (hq' : q'.dayTimeParts = q.dayTimeParts ++ [.second]) :
    Splits iv q' (x >>= OdbcInterval.splitSeconds q') := by
  obtain ⟨r, hx, -, hr⟩ := h
  exact ⟨_, hx.bind (exact_splitSeconds hr.fraction_fits), rfl, hq' ▸ hr.splitSeconds hlast hp⟩

/-- The day-to-hour target is split. -/
theorem splits_dayToHour (hm : -2 ^ 63 < iv.micros) (hd : iv.totalDays < 2 ^ 32) :
    Splits iv .dayToHour (setDayToHour iv s) :=
  ⟨_, exact_setDayToHour hm hd, rfl, recombines_day_hour hm hd rfl rfl rfl⟩

/-- So is the hour target. -/
theorem splits_hour (hm : -2 ^ 63 < iv.micros)
    (hh : iv.totalDays * 24 + iv.totalMicros / microsPerHour < 2 ^ 32) :
    Splits iv .hour (setHour iv s) :=
  ⟨_, exact_setHour hm hh, rfl, recombines_hour hh rfl rfl⟩

/-- So is the minute target. -/
theorem splits_minute (hm : -2 ^ 63 < iv.micros)
    (hmin : iv.totalDays * 1440 + iv.totalMicros / microsPerMinute < 2 ^ 32) :
    Splits iv .minute (setMinute iv s) :=
  ⟨_, exact_setMinute hm hmin, rfl, recombines_minute hmin rfl rfl⟩

/-- The hours of an interval. -/
theorem leadingValue_hour : IntervalPart.leadingValue iv .hour =
    iv.totalDays * 24 + iv.totalMicros / microsPerHour := by
  simp only [IntervalPart.leadingValue, IntervalPart.micros, microsPerDay, microsPerHour]
  omega

/-- The minutes of an interval. -/
theorem leadingValue_minute : IntervalPart.leadingValue iv .minute =
    iv.totalDays * 1440 + iv.totalMicros / microsPerMinute := by
  simp only [IntervalPart.leadingValue, IntervalPart.micros, microsPerDay, microsPerMinute]
  omega

/-- Every target is split if its leading value fits. -/
theorem splits_set {q : IntervalType} {lead : IntervalPart}
    (hq : q.dayTimeParts.head? = some lead) (hm : -2 ^ 63 < iv.micros)
    (hlead : lead.leadingValue iv < 2 ^ 32) : Splits iv q (set iv q s) := by
  cases q with
  | dayToHour =>
    cases hq
    exact splits_dayToHour hm hlead
  | dayToMinute =>
    cases hq
    exact (splits_dayToHour hm hlead).splitMinutes rfl (by decide) rfl
  | dayToSecond =>
    cases hq
    have hminute : Splits iv .dayToMinute (setDayToMinute iv s) :=
      (splits_dayToHour hm hlead).splitMinutes rfl (by decide) rfl
    exact hminute.splitSeconds rfl (by decide) rfl
  | hour =>
    cases hq
    exact splits_hour hm (leadingValue_hour ▸ hlead)
  | hourToMinute =>
    cases hq
    exact (splits_hour hm (leadingValue_hour ▸ hlead)).splitMinutes rfl (by decide) rfl
  | hourToSecond =>
    cases hq
    have hminute : Splits iv .hourToMinute (setHourToMinute iv s) :=
      (splits_hour hm (leadingValue_hour ▸ hlead)).splitMinutes rfl (by decide) rfl
    exact hminute.splitSeconds rfl (by decide) rfl
  | minute =>
    cases hq
    exact splits_minute hm (leadingValue_minute ▸ hlead)
  | minuteToSecond =>
    cases hq
    exact (splits_minute hm (leadingValue_minute ▸ hlead)).splitSeconds rfl (by decide) rfl
  | _ => cases hq

end OdbcInterval

/-- Only the sign is set. -/
theorem OdbcInterval.setSignal_eq (iv : Interval) (s : SqlIntervalStruct) :
    ∃ sign, OdbcInterval.setSignal iv s = { s with intervalSign := sign } := by
  unfold OdbcInterval.setSignal
  split
  · exact ⟨_, rfl⟩
  · split
    · exact ⟨_, rfl⟩
    · exact ⟨_, rfl⟩

/-- The sign keeps what recombines. -/
theorem Recombines.setSignal {iv : Interval} {parts : List IntervalPart} {s : SqlIntervalStruct}
    (h : Recombines iv parts s) : Recombines iv parts (OdbcInterval.setSignal iv s) := by
  obtain ⟨sign, hsign⟩ := OdbcInterval.setSignal_eq iv s
  have hget : ∀ p : IntervalPart, p.get { s with intervalSign := sign } = p.get s := by
    rintro (_ | _ | _ | _) <;> rfl
  rw [hsign]
  exact
    { total := by simpa only [hget] using h.total
      fields_fit := fun p hp => hget p ▸ h.fields_fit p hp
      below_sixty := fun p hp hhour => hget p ▸ h.below_sixty p hp hhour
      fraction_fits := h.fraction_fits
      fraction_lt := h.fraction_lt }

/-- Fetching an interval as a day-time form whose leading field fits : nothing wraps on the
way, and the fields say how long the interval is. -/
theorem interval_data_recombines (tryCast : String → Except String Interval) {iv : Interval}
    {q : IntervalType} {lead : IntervalPart} (hq : q.dayTimeParts.head? = some lead)
    (hm : -2 ^ 63 < iv.micros) (hlead : lead.leadingValue iv < 2 ^ 32)
    (target : SqlIntervalStruct) :
    ∃ x r, getIntervalData tryCast (.interval iv) q target = .ok x ∧ x.Exact r ∧
      r.intervalType = q ∧ Recombines iv q.dayTimeParts r := by
  obtain ⟨r, hx, hq', hr⟩ := OdbcInterval.splits_set (s := target) hq hm hlead
  obtain ⟨sign, hsign⟩ := OdbcInterval.setSignal_eq iv r
  refine ⟨_, _, rfl, hx.bind (exact_pure _), ?_, hr.setSignal⟩
  rw [hsign]
  exact hq'

/-- Minus forty days and over three hours, as `SQL_C_INTERVAL_HOUR_TO_MINUTE`. -/
theorem interval_data_recombines_hours :
    ∃ x r, getIntervalData (fun _ => .error "")
        (.interval ⟨-1, -10, 12345678901, by decide, by decide, by decide⟩) .hourToMinute
        ⟨.day, false, 0, 0, 0, 0, 0⟩ = .ok x ∧ x.Exact r ∧ r.intervalType = .hourToMinute ∧
      Recombines ⟨-1, -10, 12345678901, by decide, by decide, by decide⟩ [.hour, .minute] r :=
  interval_data_recombines _
    (show (IntervalType.dayTimeParts .hourToMinute).head? = some .hour from rfl)
    (by decide) (by decide) _

end HaybarnOdbc
