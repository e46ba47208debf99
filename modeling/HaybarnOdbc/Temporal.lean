import HaybarnOdbc.Dates

/-!
# Dates, times and timestamps

`CastTimestampValue` and the branches of `GetDataStmtResult` for `SQL_C_TYPE_DATE`,
`SQL_C_TYPE_TIME` and `SQL_C_TYPE_TIMESTAMP`. A branch ends in `SQL_ERROR`, in a struct in
the application's memory, or in an exception of the engine that leaves the function. The
local variable a cast was to fill has no value before it (`junk`), and has none after a
cast whose failure is taken for a success.
-/

namespace HaybarnOdbc

open MachineInt Calendar

/-! ## Values and structs -/

/-- The unit of a type of timestamps. -/
inductive TimestampUnit
  | sec
  | ms
  | us
  | ns
  deriving DecidableEq, Repr

/-- The dates, times and timestamps of the engine, over its whole range. -/
inductive TemporalValue
  | date (days : ℤ) (fits : i32.Fits days)
  | time (micros : ℤ) (nonneg : 0 ≤ micros) (le : micros ≤ microsPerDay)
  | timestamp (unit : TimestampUnit) (value : ℤ) (fits : i64.Fits value)

/-- A value that is not null, as far as the branches tell values apart. -/
inductive TemporalSource
  | value (v : TemporalValue)
  | varchar (text : String)
  | other (typeName : String)

/-- The name of the timestamp type. -/
def TimestampUnit.typeName : TimestampUnit → String
  | sec => "TIMESTAMP_S"
  | ms => "TIMESTAMP_MS"
  | us => "TIMESTAMP"
  | ns => "TIMESTAMP_NS"

/-- The name of the type of the value, as error messages have it. -/
def TemporalSource.typeName : TemporalSource → String
  | .value (.date ..) => "DATE"
  | .value (.time ..) => "TIME"
  | .value (.timestamp u ..) => u.typeName
  | .varchar _ => "VARCHAR"
  | .other typeName => typeName

/-- `SQL_DATE_STRUCT`. -/
structure SqlDateStruct where
  year : ℤ
  month : ℤ
  day : ℤ
  deriving DecidableEq, Repr

/-- `SQL_TIME_STRUCT`. -/
structure SqlTimeStruct where
  hour : ℤ
  minute : ℤ
  second : ℤ
  deriving DecidableEq, Repr

/-- `SQL_TIMESTAMP_STRUCT`, with `fraction` in nanoseconds. -/
structure SqlTimestampStruct where
  date : SqlDateStruct
  time : SqlTimeStruct
  fraction : ℤ
  deriving DecidableEq, Repr

/-- The three C types. -/
inductive TemporalTarget
  | date
  | time
  | timestamp
  deriving DecidableEq, Repr

/-- A struct of the application. -/
inductive TemporalStruct
  | date (s : SqlDateStruct)
  | time (s : SqlTimeStruct)
  | timestamp (s : SqlTimestampStruct)
  deriving DecidableEq, Repr

/-- What the branches use of the engine's casts from text, and how it words a failed cast
from a value to a type. -/
structure TextCasts where
  toDate : String → Option ℤ
  toTime : String → Option ℤ
  toTimestamp : String → Option ℤ
  exceptionText : TemporalSource → String → String

/-- How a branch ends : `SQL_ERROR`, success with a struct stored, the diagnostics posted
on the way, or an exception nothing catches. -/
inductive TemporalResult
  | error (records : List DiagRecord)
  | stored (s : TemporalStruct) (records : List DiagRecord)
  | thrown (msg : String)
  deriving DecidableEq, Repr

/-! ## The branches -/

/-- The function that brings a unit to microseconds. -/
def TimestampUnit.fromEpoch : TimestampUnit → ℤ → Except String ℤ
  | sec => EngineTimestamp.fromEpochSeconds
  | ms => EngineTimestamp.fromEpochMs
  | us => EngineTimestamp.fromEpochMicroSeconds
  | ns => EngineTimestamp.fromEpochNanoSeconds

/-- `SQL_ERROR`, as a number. -/
def sqlError : ℤ := -1

/-- `CastTimestampValue`, with the variable `target` it fills. On the failing path the
result is the code of `SetDiagnosticRecord` converted to a boolean. -/
def castTimestampValue (castOp : ℤ → Except String ℤ) (unit : TimestampUnit) (input target : ℤ) :
    Bool × ℤ × List DiagRecord :=
  let casted := do
    let timestamp ← if EngineTimestamp.IsFinite input then unit.fromEpoch input else .ok input
    castOp timestamp
  match casted with
  | .ok result => (true, result, [])
  | .error msg => (decide (sqlError ≠ 0), target, [⟨"CastTimestampValue", msg, .st22007⟩])

variable (C : TextCasts)

/-- `Cast` of a timestamp to a date. -/
def castToDate (timestamp : ℤ) : Except String ℤ := .ok (EngineTimestamp.getDate timestamp)

/-- `Cast` of a timestamp to a time, which there is none of an infinite one. -/
def castToTime (v : TemporalSource) (timestamp : ℤ) : Except String ℤ :=
  if EngineTimestamp.IsFinite timestamp then EngineTimestamp.getTime timestamp
  else .error (C.exceptionText v "TIME")

/-- The `SQL_DATE_STRUCT` of a date. -/
def dateStruct (date : ℤ) : SqlDateStruct :=
  let (year, month, day) := EngineDate.convert date
  ⟨i16.wrap year, u16.wrap month, u16.wrap day⟩

/-- The `SQL_TIME_STRUCT` of a time. -/
def timeStruct (time : ℤ) : SqlTimeStruct :=
  let (hour, minute, second, _) := EngineTime.convert time
  ⟨u16.wrap hour, u16.wrap minute, u16.wrap second⟩

/-- A cast from text. -/
def castText (v : TemporalSource) (toType : String) (casted : Option ℤ)
    (store : ℤ → TemporalResult) : TemporalResult :=
  match casted with
  | some result => store result
  | none => .error [⟨"GetDataStmtResult", C.exceptionText v toType, .st07006⟩]

/-- A cast of a timestamp that left its result in a variable. -/
def storeCasted (casted : Bool × ℤ × List DiagRecord) (store : ℤ → TemporalStruct) :
    TemporalResult :=
  let (ok, result, records) := casted
  if ok then .stored (store result) records else .error records

/-- The branch of `SQL_C_TYPE_DATE`. -/
def getDateData (junk : ℤ) (v : TemporalSource) : TemporalResult :=
  match v with
  | .value (.date days _) => .stored (.date (dateStruct days)) []
  | .value (.timestamp u value _) =>
    storeCasted (castTimestampValue castToDate u value junk) fun date => .date (dateStruct date)
  | .varchar text =>
    castText C v "DATE" (C.toDate text) fun date => .stored (.date (dateStruct date)) []
  | _ => .error [throwInvalidCast "GetDataStmtResult" v.typeName "DATE"]

/-- The branch of `SQL_C_TYPE_TIME`. -/
def getTimeData (junk : ℤ) (v : TemporalSource) : TemporalResult :=
  match v with
  | .value (.time micros _ _) => .stored (.time (timeStruct micros)) []
  | .value (.timestamp u value _) =>
    storeCasted (castTimestampValue (castToTime C v) u value junk) fun time =>
      .time (timeStruct time)
  | .varchar text =>
    castText C v "TIME" (C.toTime text) fun time => .stored (.time (timeStruct time)) []
  | _ => .error [throwInvalidCast "GetDataStmtResult" v.typeName "TIME"]

/-- The end of the branch of `SQL_C_TYPE_TIMESTAMP`. -/
def storeTimestamp (timestamp : ℤ) : TemporalResult :=
  let date := dateStruct (EngineTimestamp.getDate timestamp)
  match EngineTimestamp.getTime timestamp with
  | .error msg => .thrown msg
  | .ok time =>
    let (_, _, _, micros) := EngineTime.convert time
    .stored (.timestamp ⟨date, timeStruct time, u32.wrap (i32.wrap (micros * 1000))⟩) []

/-- The branch of `SQL_C_TYPE_TIMESTAMP`. A time, whose cast the engine has not, is the
moment that long after the epoch. -/
def getTimestampData (v : TemporalSource) : TemporalResult :=
  match v with
  | .value (.timestamp u value _) =>
    let timestamp :=
      if u ≠ .us ∧ ¬EngineTimestamp.IsFinite value then .ok value else u.fromEpoch value
    match timestamp with
    | .error msg => .thrown msg
    | .ok timestamp => storeTimestamp timestamp
  | .value (.date days _) =>
    castText C v "TIMESTAMP" (EngineTimestamp.tryCastDate days) storeTimestamp
  | .value (.time micros _ _) => storeTimestamp micros
  | .varchar text => castText C v "TIMESTAMP" (C.toTimestamp text) storeTimestamp
  | .other typeName => .error [throwInvalidCast "GetDataStmtResult" typeName "TIMESTAMP"]

/-- `GetDataStmtResult` for the three C types. -/
def getTemporalData (junk : ℤ) (v : TemporalSource) : TemporalTarget → TemporalResult
  | .date => getDateData C junk v
  | .time => getTimeData C junk v
  | .timestamp => getTimestampData C v

/-! ## Civil fields -/

/-- `Interval::NANOS_PER_SEC`. -/
def nanosPerSec : ℤ := 1000000000

/-- `Interval::NANOS_PER_DAY`. -/
def nanosPerDay : ℤ := 86400000000000

namespace TimestampUnit

/-- The units of a second. -/
def perSec : TimestampUnit → ℤ
  | sec => 1
  | ms => 1000
  | us => 1000000
  | ns => 1000000000

end TimestampUnit

namespace TemporalValue

/-- A value that is not infinite. -/
def Finite : TemporalValue → Prop
  | date days _ => EngineDate.IsFinite days
  | time .. => True
  | timestamp _ value _ => EngineTimestamp.IsFinite value

/-- The day of the value, the epoch being day 0. -/
def civilDay : TemporalValue → ℤ
  | date days _ => days
  | time micros _ _ => micros / microsPerDay
  | timestamp u value _ => value / (u.perSec * 86400)

/-- The whole seconds of the day before the value ; a `TIME` has no day. -/
def civilSecond : TemporalValue → ℤ
  | date .. => 0
  | time micros _ _ => micros / microsPerSec
  | timestamp u value _ => value % (u.perSec * 86400) / u.perSec

/-- The nanoseconds of the last second. -/
def civilNanos : TemporalValue → ℤ
  | date .. => 0
  | time micros _ _ => micros % microsPerSec * 1000
  | timestamp u value _ => value % u.perSec * (nanosPerSec / u.perSec)

end TemporalValue

/-- The struct holds the date of a day. -/
def HoldsDay (day : ℤ) (s : SqlDateStruct) : Prop :=
  ∃ d : Date, d.number = day + EngineDate.epochNumber ∧ s = ⟨d.year, d.month, d.day⟩

/-- The struct holds a second of the day. -/
def HoldsSecond (second : ℤ) (s : SqlTimeStruct) : Prop :=
  (s.hour * 60 + s.minute) * 60 + s.second = second ∧ 0 ≤ s.minute ∧ s.minute < 60 ∧
    0 ≤ s.second ∧ s.second < 60

/-- The fields of the struct are the civil fields of the value, if it has any. As a
timestamp, the last moment of a `TIME` is the first one of the next day. -/
def HoldsCivil (v : TemporalValue) : TemporalStruct → Prop
  | .date s => v.Finite ∧ HoldsDay v.civilDay s
  | .time s => v.Finite ∧ HoldsSecond v.civilSecond s
  | .timestamp s => v.Finite ∧ HoldsDay v.civilDay s.date ∧
      HoldsSecond (v.civilSecond % 86400) s.time ∧ s.fraction = v.civilNanos

/-- The call fails with `SQL_ERROR`, or stores the civil fields. -/
def ErrorOrCivil (v : TemporalValue) : TemporalResult → Prop
  | .error _ => True
  | .stored s _ => HoldsCivil v s
  | .thrown _ => False

/-- The year of the day fits the 16 bits of the struct. -/
def YearFits (day : ℤ) : Prop :=
  daysBeforeYear (-2 ^ 15) ≤ day + EngineDate.epochNumber ∧
    day + EngineDate.epochNumber < daysBeforeYear (2 ^ 15)

/-- Rounded towards zero to microseconds, a timestamp in nanoseconds stays in its `span`
of nanoseconds. -/
def StaysIn (span value : ℤ) : Prop := 0 ≤ value ∨ value % span ≤ span - 1000

/-- The values a fetch as the C type does not get wrong. -/
def Fetchable : TemporalTarget → TemporalValue → Prop
  | .date, .date days _ => YearFits days
  | .date, .time .. => True
  | .date, .timestamp .ns value _ => EngineTimestamp.IsFinite value ∧ StaysIn nanosPerDay value
  | .date, .timestamp u value _ => YearFits (value / (u.perSec * 86400))
  | .time, .date .. => True
  | .time, .time .. => True
  | .time, .timestamp .sec value _ => i64.Fits (value * 1000000)
  | .time, .timestamp .ms value _ => i64.Fits (value * 1000)
  | .time, .timestamp .us value _ => EngineTimestamp.IsFinite value
  | .time, .timestamp .ns value _ => EngineTimestamp.IsFinite value ∧ StaysIn nanosPerSec value
  | .timestamp, .date days _ =>
    EngineDate.IsFinite days ∧ (¬i64.Fits (days * microsPerDay) ∨ YearFits days)
  | .timestamp, .time .. => True
  | .timestamp, .timestamp .ns value _ => EngineTimestamp.IsFinite value ∧ value % 1000 = 0
  | .timestamp, .timestamp u value _ => YearFits (value / (u.perSec * 86400))

/-! ### The fields stored -/

theorem fits_i16 {n : ℤ} : i16.Fits n ↔ -2 ^ 15 ≤ n ∧ n < 2 ^ 15 := Iff.rfl

theorem fits_u16 {n : ℤ} : u16.Fits n ↔ 0 ≤ n ∧ n < 2 ^ 16 := Iff.rfl

theorem yearFits_iff (day : ℤ) : YearFits day ↔ -12687794 ≤ day ∧ day < 11248738 := by
  have hlow : daysBeforeYear (-2 ^ 15) = -11968632 := by decide
  have hhigh : daysBeforeYear (2 ^ 15) = 11967900 := by decide
  have hepoch : EngineDate.epochNumber = 719162 := by decide
  unfold YearFits
  omega

theorem year_fits_iff {day : ℤ} {d : Date} (hd : d.number = day + EngineDate.epochNumber) :
    i16.Fits d.year ↔ YearFits day := by
  have hlow := d.lt_daysBeforeYear_iff (-2 ^ 15)
  have hhigh := d.lt_daysBeforeYear_iff (2 ^ 15)
  unfold YearFits
  rw [← hd, fits_i16]
  omega

/-- A struct, whichever date it was filled from, holds no day whose year does not fit. -/
theorem yearFits_of_holdsDay {day date : ℤ} (h : HoldsDay day (dateStruct date)) :
    YearFits day := by
  obtain ⟨e, he, hs⟩ := h
  obtain ⟨d, -, hx⟩ := EngineDate.convert_spec date
  have hwrap : i16.wrap d.year = e.year := by
    have hyear := congrArg SqlDateStruct.year hs
    unfold dateStruct at hyear
    rw [hx] at hyear
    exact hyear
  rw [← year_fits_iff he, ← hwrap]
  exact IntType.fits_wrap (by decide) d.year

/-- The date of a day is stored when its year fits, and only then. -/
theorem holdsDay_dateStruct_iff (day : ℤ) : HoldsDay day (dateStruct day) ↔ YearFits day := by
  refine ⟨yearFits_of_holdsDay, fun hfits => ?_⟩
  obtain ⟨d, hd, hx⟩ := EngineDate.convert_spec day
  have hmonth := d.month_le
  have hday := d.day_le.trans (daysInMonth_le d.year d.month)
  have hpos := d.day_pos
  have hyear : i16.wrap d.year = d.year :=
    IntType.wrap_of_fits (by decide) ((year_fits_iff hd).mpr hfits)
  have hwmonth : u16.wrap d.month = d.month :=
    IntType.wrap_of_fits (by decide) (fits_u16.mpr (by omega))
  have hwday : u16.wrap d.day = d.day :=
    IntType.wrap_of_fits (by decide) (fits_u16.mpr (by omega))
  refine ⟨d, hd, ?_⟩
  unfold dateStruct
  rw [hx]
  dsimp only
  rw [hyear, hwmonth, hwday]

theorem timeStruct_eq {micros : ℤ} (h0 : 0 ≤ micros) (hle : micros ≤ microsPerDay) :
    timeStruct micros = ⟨micros / microsPerHour, micros % microsPerHour / microsPerMinute,
      micros % microsPerMinute / microsPerSec⟩ := by
  have hwrap : ∀ n : ℤ, 0 ≤ n → n < 2 ^ 16 → u16.wrap n = n := fun n hn hlt =>
    IntType.wrap_of_fits (by decide) (fits_u16.mpr ⟨hn, hlt⟩)
  unfold timeStruct
  rw [EngineTime.convert_spec h0 hle]
  simp only [microsPerDay] at hle
  simp only [microsPerHour, microsPerMinute, microsPerSec]
  rw [hwrap (micros / 3600000000) (by omega) (by omega),
    hwrap (micros % 3600000000 / 60000000) (by omega) (by omega),
    hwrap (micros % 60000000 / 1000000) (by omega) (by omega)]

/-- The struct filled from a time of day holds its second, and no other. -/
theorem holdsSecond_timeStruct_iff {micros : ℤ} (h0 : 0 ≤ micros) (hle : micros ≤ microsPerDay)
    (second : ℤ) : HoldsSecond second (timeStruct micros) ↔ second = micros / microsPerSec := by
  rw [timeStruct_eq h0 hle]
  simp only [HoldsSecond, microsPerHour, microsPerMinute, microsPerSec]
  omega

theorem holdsDay_unique {a b : ℤ} {s : SqlDateStruct} (ha : HoldsDay a s) (hb : HoldsDay b s) :
    a = b := by
  obtain ⟨d, hd, rfl⟩ := ha
  obtain ⟨e, he, hs⟩ := hb
  have hde : d = e := by
    refine Date.ext (congrArg SqlDateStruct.year hs) ?_ (congrArg SqlDateStruct.day hs)
    exact Int.natCast_inj.mp (congrArg SqlDateStruct.month hs)
  rw [hde] at hd
  omega

/-! ### Casts of timestamps -/

/-- The timestamp in microseconds a value becomes, with the civil fields of the value. -/
structure SameMoment (u : TimestampUnit) (value ts : ℤ) : Prop where
  fits : i64.Fits ts
  finite : EngineTimestamp.IsFinite ts
  day : ts / microsPerDay = value / (u.perSec * 86400)
  second : ts % microsPerDay / microsPerSec = value % (u.perSec * 86400) / u.perSec
  nanos : ts % microsPerSec * 1000 = value % u.perSec * (nanosPerSec / u.perSec)

section Casts

variable {u : TimestampUnit} {value ts : ℤ} {op : ℤ → Except String ℤ} {target : ℤ}

theorem castTimestampValue_ok {r : ℤ} (hfin : EngineTimestamp.IsFinite value)
    (hts : u.fromEpoch value = .ok ts) (hop : op ts = .ok r) :
    castTimestampValue op u value target = (true, r, []) := by
  simp only [castTimestampValue, if_pos hfin, hts]
  show (match op ts with | .ok result => _ | .error msg => _) = _
  rw [hop]

/-- A failing conversion leaves the variable as it was, and is taken for a success. -/
theorem castTimestampValue_of_thrown {msg : String} (hfin : EngineTimestamp.IsFinite value)
    (hts : u.fromEpoch value = .error msg) :
    castTimestampValue op u value target =
      (true, target, [⟨"CastTimestampValue", msg, .st22007⟩]) := by
  simp only [castTimestampValue, if_pos hfin, hts]
  rfl

theorem castTimestampValue_infinite (u : TimestampUnit) (op : ℤ → Except String ℤ) (target : ℤ)
    (hinf : ¬EngineTimestamp.IsFinite value) :
    ∃ r records, castTimestampValue op u value target = (true, r, records) ∧
      (∀ msg, op value = .error msg → r = target) := by
  cases hop : op value with
  | ok r =>
    refine ⟨r, [], ?_, nofun⟩
    simp only [castTimestampValue, if_neg hinf]
    show (match op value with | .ok result => _ | .error msg => _) = _
    rw [hop]
  | error msg =>
    refine ⟨target, [⟨"CastTimestampValue", msg, .st22007⟩], ?_, fun _ _ => rfl⟩
    simp only [castTimestampValue, if_neg hinf]
    show (match op value with | .ok result => _ | .error msg => _) = _
    rw [hop]
    rfl

/-- Seconds and milliseconds become microseconds, if these fit 64 bits. -/
theorem fromEpoch_sec (hfits : i64.Fits (value * 1000000)) :
    TimestampUnit.sec.fromEpoch value = .ok (value * 1000000) ∧
      SameMoment .sec value (value * 1000000) := by
  have h64 := fits_i64.mp hfits
  refine ⟨?_, hfits, ?_, ?_, ?_, ?_⟩
  · have hmul : EngineTimestamp.tryMultiply value microsPerSec = some (value * 1000000) :=
      if_pos hfits
    simp only [TimestampUnit.fromEpoch, EngineTimestamp.fromEpochSeconds, hmul]
  · simp only [EngineTimestamp.IsFinite, EngineTimestamp.infinity]
    omega
  · simp only [microsPerDay, TimestampUnit.perSec]
    omega
  · simp only [microsPerDay, microsPerSec, TimestampUnit.perSec]
    omega
  · simp only [microsPerSec, TimestampUnit.perSec, nanosPerSec]
    omega

theorem fromEpoch_ms (hfits : i64.Fits (value * 1000)) :
    TimestampUnit.ms.fromEpoch value = .ok (value * 1000) ∧
      SameMoment .ms value (value * 1000) := by
  have h64 := fits_i64.mp hfits
  refine ⟨?_, hfits, ?_, ?_, ?_, ?_⟩
  · have hmul : EngineTimestamp.tryMultiply value 1000 = some (value * 1000) := if_pos hfits
    simp only [TimestampUnit.fromEpoch, EngineTimestamp.fromEpochMs, hmul]
  · simp only [EngineTimestamp.IsFinite, EngineTimestamp.infinity]
    omega
  · simp only [microsPerDay, TimestampUnit.perSec]
    omega
  · simp only [microsPerDay, microsPerSec, TimestampUnit.perSec]
    omega
  · simp only [microsPerSec, TimestampUnit.perSec, nanosPerSec]
    omega

theorem sameMoment_us (hfits : i64.Fits value) (hfin : EngineTimestamp.IsFinite value) :
    SameMoment .us value value := by
  refine ⟨hfits, hfin, ?_, ?_, ?_⟩
  · simp only [microsPerDay, TimestampUnit.perSec]
    omega
  · simp only [microsPerDay, microsPerSec, TimestampUnit.perSec]
    omega
  · simp only [microsPerSec, TimestampUnit.perSec, nanosPerSec]
    omega

theorem fromEpoch_ns (hfits : i64.Fits value) :
    TimestampUnit.ns.fromEpoch value = .ok (value.tdiv 1000) ∧ i64.Fits (value.tdiv 1000) ∧
      EngineTimestamp.IsFinite (value.tdiv 1000) := by
  have h64 := fits_i64.mp hfits
  have hdiv := Int.mul_tdiv_add_tmod value 1000
  have hlt := Int.tmod_lt_of_pos value (by decide : (0 : ℤ) < 1000)
  have hgt := Int.lt_tmod_of_pos value (by decide : (0 : ℤ) < 1000)
  refine ⟨rfl, fits_i64.mpr (by omega), ?_⟩
  simp only [EngineTimestamp.IsFinite, EngineTimestamp.infinity]
  omega

theorem fromEpoch_sec_of_not_fits (hfits : ¬i64.Fits (value * 1000000)) :
    ∃ msg, TimestampUnit.sec.fromEpoch value = .error msg := by
  have hmul : EngineTimestamp.tryMultiply value microsPerSec = none := if_neg hfits
  simp only [TimestampUnit.fromEpoch, EngineTimestamp.fromEpochSeconds, hmul]
  exact ⟨_, rfl⟩

theorem fromEpoch_ms_of_not_fits (hfits : ¬i64.Fits (value * 1000)) :
    ∃ msg, TimestampUnit.ms.fromEpoch value = .error msg := by
  have hmul : EngineTimestamp.tryMultiply value 1000 = none := if_neg hfits
  simp only [TimestampUnit.fromEpoch, EngineTimestamp.fromEpochMs, hmul]
  exact ⟨_, rfl⟩

end Casts

theorem storeTimestamp_of_finite {ts : ℤ} (hfits : i64.Fits ts)
    (hfin : EngineTimestamp.IsFinite ts) :
    storeTimestamp ts = .stored (.timestamp
      ⟨dateStruct (ts / microsPerDay), timeStruct (ts % microsPerDay),
        ts % microsPerSec * 1000⟩) [] := by
  have hconv := EngineTime.convert_spec (Int.emod_nonneg ts (by decide : microsPerDay ≠ 0))
    (Int.emod_lt_of_pos ts (by decide : 0 < microsPerDay)).le
  have hnanos : u32.wrap (i32.wrap (ts % microsPerDay % microsPerSec * 1000)) =
      ts % microsPerSec * 1000 := by
    simp only [microsPerDay, microsPerSec]
    rw [IntType.wrap_of_fits (t := i32) (by decide) (fits_i32.mpr (by omega)),
      IntType.wrap_of_fits (by decide) (fits_u32.mpr (by omega))]
    omega
  unfold storeTimestamp
  rw [EngineTimestamp.getTime_of_finite hfits hfin, EngineTimestamp.getDate_of_finite hfits hfin]
  dsimp only
  rw [hconv]
  dsimp only
  rw [hnanos]

theorem storeTimestamp_of_infinite {ts : ℤ} (hinf : ¬EngineTimestamp.IsFinite ts) :
    storeTimestamp ts = .thrown "Can't get TIME of infinite TIMESTAMP" := by
  unfold storeTimestamp
  rw [EngineTimestamp.getTime, if_neg hinf]

/-! ### When a fetch is right -/

/-- The fetch fails with `SQL_ERROR` or stores the civil fields, whatever the memory of its
local variables. -/
def FetchesRight (C : TextCasts) (target : TemporalTarget) (v : TemporalValue) : Prop :=
  ∀ junk, ErrorOrCivil v (getTemporalData C junk (.value v) target)

section Timestamps

variable {C} {u : TimestampUnit} {value ts : ℤ} {h64 : i64.Fits value}

/-- The cast of a finite timestamp to microseconds succeeds. -/
structure Reaches (u : TimestampUnit) (value ts : ℤ) : Prop where
  finite : EngineTimestamp.IsFinite value
  fromEpoch : u.fromEpoch value = .ok ts
  fits : i64.Fits ts
  finite' : EngineTimestamp.IsFinite ts

theorem fetchesRight_date_iff (h : Reaches u value ts) :
    FetchesRight C .date (.timestamp u value h64) ↔
      HoldsDay (value / (u.perSec * 86400)) (dateStruct (ts / microsPerDay)) := by
  have hdata : ∀ junk, getTemporalData C junk (.value (.timestamp u value h64)) .date =
      .stored (.date (dateStruct (ts / microsPerDay))) [] := by
    intro junk
    have hcast : castTimestampValue castToDate u value junk =
        (true, EngineTimestamp.getDate ts, []) := castTimestampValue_ok h.finite h.fromEpoch rfl
    simp only [getTemporalData, getDateData, storeCasted, hcast,
      EngineTimestamp.getDate_of_finite h.fits h.finite']
    rfl
  unfold FetchesRight
  simp only [hdata]
  exact ⟨fun hall => (hall 0).2, fun hday _ => ⟨h.finite, hday⟩⟩

theorem fetchesRight_time_iff (h : Reaches u value ts) :
    FetchesRight C .time (.timestamp u value h64) ↔
      value % (u.perSec * 86400) / u.perSec = ts % microsPerDay / microsPerSec := by
  have h0 : 0 ≤ ts % microsPerDay := Int.emod_nonneg _ (by decide)
  have hle : ts % microsPerDay ≤ microsPerDay := (Int.emod_lt_of_pos _ (by decide)).le
  have hdata : ∀ junk, getTemporalData C junk (.value (.timestamp u value h64)) .time =
      .stored (.time (timeStruct (ts % microsPerDay))) [] := by
    intro junk
    have hop : castToTime C (.value (.timestamp u value h64)) ts = .ok (ts % microsPerDay) := by
      rw [castToTime, if_pos h.finite', EngineTimestamp.getTime_of_finite h.fits h.finite']
    simp only [getTemporalData, getTimeData, storeCasted,
      castTimestampValue_ok h.finite h.fromEpoch hop]
    rfl
  unfold FetchesRight
  simp only [hdata]
  rw [← holdsSecond_timeStruct_iff h0 hle]
  exact ⟨fun hall => (hall 0).2, fun hsec _ => ⟨h.finite, hsec⟩⟩

theorem fetchesRight_timestamp_iff (h : Reaches u value ts) :
    FetchesRight C .timestamp (.timestamp u value h64) ↔
      HoldsDay (value / (u.perSec * 86400)) (dateStruct (ts / microsPerDay)) ∧
        value % (u.perSec * 86400) / u.perSec % 86400 = ts % microsPerDay / microsPerSec ∧
          ts % microsPerSec * 1000 = value % u.perSec * (nanosPerSec / u.perSec) := by
  have h0 : 0 ≤ ts % microsPerDay := Int.emod_nonneg _ (by decide)
  have hle : ts % microsPerDay ≤ microsPerDay := (Int.emod_lt_of_pos _ (by decide)).le
  have hdata : ∀ junk, getTemporalData C junk (.value (.timestamp u value h64)) .timestamp =
      storeTimestamp ts := by
    intro junk
    have hguard : ¬(u ≠ .us ∧ ¬EngineTimestamp.IsFinite value) := fun hn => hn.2 h.finite
    simp only [getTemporalData, getTimestampData, if_neg hguard, h.fromEpoch]
  unfold FetchesRight
  simp only [hdata, storeTimestamp_of_finite h.fits h.finite']
  rw [← holdsSecond_timeStruct_iff h0 hle]
  exact ⟨fun hall => (hall 0).2, fun hciv _ => ⟨h.finite, hciv⟩⟩

/-- After a conversion that throws, the date stored is that of an undefined variable. -/
theorem yearFits_of_thrown {msg : String} (hfin : EngineTimestamp.IsFinite value)
    (hts : u.fromEpoch value = .error msg)
    (h : FetchesRight C .date (.timestamp u value h64)) :
    YearFits (value / (u.perSec * 86400)) := by
  have h0 := h 0
  simp only [getTemporalData, getDateData, storeCasted,
    castTimestampValue_of_thrown hfin hts] at h0
  exact yearFits_of_holdsDay h0.2

theorem not_fetchesRight_time_of_thrown {msg : String} (hfin : EngineTimestamp.IsFinite value)
    (hts : u.fromEpoch value = .error msg) :
    ¬FetchesRight C .time (.timestamp u value h64) := by
  intro h
  have h0 := h 0
  have h1 := h 1000000
  simp only [getTemporalData, getTimeData, storeCasted,
    castTimestampValue_of_thrown hfin hts] at h0 h1
  have hs0 := (holdsSecond_timeStruct_iff (by decide) (by decide) _).mp h0.2
  have hs1 := (holdsSecond_timeStruct_iff (by decide) (by decide) _).mp h1.2
  rw [hs0] at hs1
  exact absurd hs1 (by decide)

theorem not_fetchesRight_timestamp_of_thrown {msg : String}
    (hfin : EngineTimestamp.IsFinite value) (hts : u.fromEpoch value = .error msg) :
    ¬FetchesRight C .timestamp (.timestamp u value h64) := by
  intro h
  have hguard : ¬(u ≠ .us ∧ ¬EngineTimestamp.IsFinite value) := fun hn => hn.2 hfin
  have h0 := h 0
  simp only [getTemporalData, getTimestampData, if_neg hguard, hts] at h0
  exact h0

/-- An infinite timestamp is stored, or its exception leaves the function. -/
theorem not_fetchesRight_of_infinite (hinf : ¬EngineTimestamp.IsFinite value)
    (target : TemporalTarget) : ¬FetchesRight C target (.timestamp u value h64) := by
  intro h
  have h0 := h 0
  cases target with
  | date =>
    obtain ⟨r, records, hx, -⟩ := castTimestampValue_infinite u castToDate 0 hinf
    simp only [getTemporalData, getDateData, storeCasted, hx] at h0
    exact hinf h0.1
  | time =>
    obtain ⟨r, records, hx, -⟩ :=
      castTimestampValue_infinite u (castToTime C (.value (.timestamp u value h64))) 0 hinf
    simp only [getTemporalData, getTimeData, storeCasted, hx] at h0
    exact hinf h0.1
  | timestamp =>
    have hts : (if u ≠ .us ∧ ¬EngineTimestamp.IsFinite value then .ok value
        else u.fromEpoch value : Except String ℤ) = .ok value := by
      cases u with
      | us => rfl
      | _ => exact if_pos ⟨nofun, hinf⟩
    simp only [getTemporalData, getTimestampData, hts, storeTimestamp_of_infinite hinf] at h0
    exact h0

end Timestamps

section ByUnit

variable {C} {value : ℤ} {h64 : i64.Fits value} {target : TemporalTarget}

/-- A timestamp that keeps its moment in microseconds is fetched right if its year fits. -/
theorem fetchesRight_of_sameMoment_iff {u : TimestampUnit} {ts : ℤ} (h : Reaches u value ts)
    (hsame : SameMoment u value ts) :
    FetchesRight C target (.timestamp u value h64) ↔
      target = .time ∨ YearFits (value / (u.perSec * 86400)) := by
  have hsecond := hsame.second
  cases target with
  | date => simp only [fetchesRight_date_iff h, hsame.day, holdsDay_dateStruct_iff, reduceCtorEq,
      false_or]
  | time => simp only [fetchesRight_time_iff h, hsame.second, true_or]
  | timestamp =>
    have hmod : value % (u.perSec * 86400) / u.perSec % 86400 =
        ts % microsPerDay / microsPerSec := by
      rw [← hsame.second]
      simp only [microsPerDay, microsPerSec]
      omega
    simp only [fetchesRight_timestamp_iff h, hsame.day, holdsDay_dateStruct_iff, hmod, hsame.nanos,
      reduceCtorEq, false_or, and_true]

/-- A timestamp whose conversion throws is never fetched right. -/
theorem not_fetchesRight_of_thrown {u : TimestampUnit}
    (hts : ∃ msg, u.fromEpoch value = .error msg)
    (hno : ¬YearFits (value / (u.perSec * 86400))) :
    ¬FetchesRight C target (.timestamp u value h64) := by
  obtain ⟨msg, hts⟩ := hts
  by_cases hfin : EngineTimestamp.IsFinite value
  · cases target with
    | date => exact fun h => hno (yearFits_of_thrown hfin hts h)
    | time => exact not_fetchesRight_time_of_thrown hfin hts
    | timestamp => exact not_fetchesRight_timestamp_of_thrown hfin hts
  · exact not_fetchesRight_of_infinite hfin target

theorem fetchesRight_sec_iff : FetchesRight C target (.timestamp .sec value h64) ↔
    Fetchable target (.timestamp .sec value h64) := by
  have hyear := yearFits_iff (value / (TimestampUnit.perSec .sec * 86400))
  by_cases hfits : i64.Fits (value * 1000000)
  · have hscaled := fits_i64.mp hfits
    have hfin : EngineTimestamp.IsFinite value := by
      simp only [EngineTimestamp.IsFinite, EngineTimestamp.infinity]
      omega
    obtain ⟨hts, hsame⟩ := fromEpoch_sec hfits
    rw [fetchesRight_of_sameMoment_iff ⟨hfin, hts, hsame.fits, hsame.finite⟩ hsame]
    cases target <;> simp [Fetchable, hfits]
  · have hno : ¬YearFits (value / (TimestampUnit.perSec .sec * 86400)) := by
      rw [hyear]
      rw [fits_i64] at hfits
      simp only [TimestampUnit.perSec]
      omega
    refine iff_of_false
      (not_fetchesRight_of_thrown (fromEpoch_sec_of_not_fits hfits) hno) ?_
    cases target with
    | date => exact hno
    | time => exact hfits
    | timestamp => exact hno

theorem fetchesRight_ms_iff : FetchesRight C target (.timestamp .ms value h64) ↔
    Fetchable target (.timestamp .ms value h64) := by
  have hyear := yearFits_iff (value / (TimestampUnit.perSec .ms * 86400))
  by_cases hfits : i64.Fits (value * 1000)
  · have hscaled := fits_i64.mp hfits
    have hfin : EngineTimestamp.IsFinite value := by
      simp only [EngineTimestamp.IsFinite, EngineTimestamp.infinity]
      omega
    obtain ⟨hts, hsame⟩ := fromEpoch_ms hfits
    rw [fetchesRight_of_sameMoment_iff ⟨hfin, hts, hsame.fits, hsame.finite⟩ hsame]
    cases target <;> simp [Fetchable, hfits]
  · have hno : ¬YearFits (value / (TimestampUnit.perSec .ms * 86400)) := by
      rw [hyear]
      rw [fits_i64] at hfits
      simp only [TimestampUnit.perSec]
      omega
    refine iff_of_false
      (not_fetchesRight_of_thrown (fromEpoch_ms_of_not_fits hfits) hno) ?_
    cases target with
    | date => exact hno
    | time => exact hfits
    | timestamp => exact hno

theorem fetchesRight_us_iff : FetchesRight C target (.timestamp .us value h64) ↔
    Fetchable target (.timestamp .us value h64) := by
  have hyear := yearFits_iff (value / (TimestampUnit.perSec .us * 86400))
  by_cases hfin : EngineTimestamp.IsFinite value
  · have hsame := sameMoment_us h64 hfin
    rw [fetchesRight_of_sameMoment_iff ⟨hfin, rfl, h64, hfin⟩ hsame]
    cases target <;> simp [Fetchable, hfin]
  · refine iff_of_false (not_fetchesRight_of_infinite hfin target) ?_
    have hno : ¬YearFits (value / (TimestampUnit.perSec .us * 86400)) := by
      rw [hyear]
      simp only [EngineTimestamp.IsFinite, EngineTimestamp.infinity] at hfin
      simp only [TimestampUnit.perSec]
      omega
    cases target with
    | date => exact hno
    | time => exact hfin
    | timestamp => exact hno

/-- Every timestamp in nanoseconds has a year that fits, but the ones before the epoch are
rounded up to microseconds. -/
theorem fetchesRight_ns_iff : FetchesRight C target (.timestamp .ns value h64) ↔
    Fetchable target (.timestamp .ns value h64) := by
  by_cases hfin : EngineTimestamp.IsFinite value
  · obtain ⟨hts, hfits, hfin'⟩ := fromEpoch_ns h64
    have hbounds := fits_i64.mp h64
    have htdiv : value.tdiv 1000 = if 0 ≤ value then value / 1000 else -(-value / 1000) := by
      by_cases h0 : 0 ≤ value
      · rw [if_pos h0, Int.tdiv_eq_ediv_of_nonneg h0]
      · have hneg := Int.neg_tdiv (-value) 1000
        rw [neg_neg, Int.tdiv_eq_ediv_of_nonneg (by omega : 0 ≤ -value)] at hneg
        rw [if_neg h0, hneg]
    have hreach : Reaches .ns value (value.tdiv 1000) := ⟨hfin, hts, hfits, hfin'⟩
    have hday : HoldsDay (value / (TimestampUnit.perSec .ns * 86400))
        (dateStruct (value.tdiv 1000 / microsPerDay)) ↔
          value / 86400000000000 = value.tdiv 1000 / microsPerDay := by
      have hyear := (yearFits_iff (value.tdiv 1000 / microsPerDay)).mpr (by
        simp only [microsPerDay]
        omega)
      constructor
      · intro h
        exact holdsDay_unique h ((holdsDay_dateStruct_iff _).mpr hyear)
      · intro h
        rw [show value / (TimestampUnit.perSec .ns * 86400) = value / 86400000000000 from rfl, h]
        exact (holdsDay_dateStruct_iff _).mpr hyear
    cases target with
    | date =>
      rw [fetchesRight_date_iff hreach, hday]
      simp only [Fetchable, StaysIn, hfin, true_and, microsPerDay, nanosPerDay]
      omega
    | time =>
      rw [fetchesRight_time_iff hreach]
      simp only [Fetchable, StaysIn, hfin, true_and, microsPerDay, microsPerSec, nanosPerSec,
        TimestampUnit.perSec]
      omega
    | timestamp =>
      rw [fetchesRight_timestamp_iff hreach, hday]
      simp only [Fetchable, hfin, true_and, microsPerDay, microsPerSec, nanosPerSec,
        TimestampUnit.perSec]
      omega
  · refine iff_of_false (not_fetchesRight_of_infinite hfin target) ?_
    cases target <;> exact fun h => hfin h.1

end ByUnit

section DatesAndTimes

variable {C} {target : TemporalTarget}

theorem finite_of_yearFits {days : ℤ} (h : YearFits days) : EngineDate.IsFinite days := by
  have hyear := (yearFits_iff days).mp h
  simp only [EngineDate.IsFinite, EngineDate.infinity]
  omega

/-- The cast of a date to a timestamp : of an infinite one, of one out of range, and of
any other. -/
theorem tryCastDate_eq {days : ℤ} (hfin : EngineDate.IsFinite days) :
    EngineTimestamp.tryCastDate days =
      if i64.Fits (days * microsPerDay) then some (days * microsPerDay) else none := by
  rw [EngineTimestamp.tryCastDate, if_neg hfin.1, if_neg hfin.2]
  unfold EngineTimestamp.tryFromDatetime EngineTimestamp.tryMultiply
  by_cases hfits : i64.Fits (days * microsPerDay)
  · have hfin' : EngineTimestamp.IsFinite (days * microsPerDay) := by
      simp only [EngineTimestamp.IsFinite, EngineTimestamp.infinity, microsPerDay]
      omega
    rw [if_pos hfits]
    show (if _ then some (days * microsPerDay + 0) else none) = _
    rw [add_zero, if_pos ⟨hfits, hfin'⟩]
  · rw [if_neg hfits]
    rfl

theorem fetchesRight_date_date_iff {days : ℤ} {h32 : i32.Fits days} :
    FetchesRight C .date (.date days h32) ↔ YearFits days := by
  constructor
  · intro h
    exact (holdsDay_dateStruct_iff days).mp (h 0).2
  · intro h _
    exact ⟨finite_of_yearFits h, (holdsDay_dateStruct_iff days).mpr h⟩

theorem fetchesRight_date_timestamp_iff {days : ℤ} {h32 : i32.Fits days} :
    FetchesRight C .timestamp (.date days h32) ↔
      EngineDate.IsFinite days ∧ (¬i64.Fits (days * microsPerDay) ∨ YearFits days) := by
  by_cases hfin : EngineDate.IsFinite days
  · by_cases hfits : i64.Fits (days * microsPerDay)
    · have hfin' : EngineTimestamp.IsFinite (days * microsPerDay) := by
        simp only [EngineTimestamp.IsFinite, EngineTimestamp.infinity, microsPerDay]
        omega
      have hday : days * microsPerDay / microsPerDay = days :=
        Int.mul_ediv_cancel _ (by decide)
      have hdata : ∀ junk, getTemporalData C junk (.value (.date days h32)) .timestamp =
          .stored (.timestamp ⟨dateStruct days, timeStruct 0, 0⟩) [] := by
        intro junk
        simp only [getTemporalData, getTimestampData, castText, tryCastDate_eq hfin, if_pos hfits]
        rw [storeTimestamp_of_finite hfits hfin', hday, Int.mul_emod_left,
          show days * microsPerDay % microsPerSec = 0 by
            simp only [microsPerDay, microsPerSec]; omega]
        rfl
      unfold FetchesRight
      simp only [hdata, hfin, hfits, not_true_eq_false, false_or, true_and]
      rw [← holdsDay_dateStruct_iff]
      constructor
      · intro h
        exact (h 0).2.1
      · intro h _
        exact ⟨hfin, h, (holdsSecond_timeStruct_iff le_rfl (by decide) _).mpr rfl, rfl⟩
    · refine iff_of_true (fun junk => ?_) ⟨hfin, .inl hfits⟩
      simp only [getTemporalData, getTimestampData, castText, tryCastDate_eq hfin, if_neg hfits]
      trivial
  · refine iff_of_false (fun h => ?_) fun h => hfin h.1
    have hcast : ∃ ts, EngineTimestamp.tryCastDate days = some ts ∧
        ¬EngineTimestamp.IsFinite ts := by
      unfold EngineTimestamp.tryCastDate
      by_cases hinf : days = EngineDate.infinity
      · exact ⟨_, if_pos hinf, fun h => h.1 rfl⟩
      · by_cases hninf : days = -EngineDate.infinity
        · exact ⟨_, (if_neg hinf).trans (if_pos hninf), fun h => h.2 rfl⟩
        · exact absurd ⟨hinf, hninf⟩ hfin
    obtain ⟨ts, hts, hinf⟩ := hcast
    have h0 := h 0
    simp only [getTemporalData, getTimestampData, castText, hts,
      storeTimestamp_of_infinite hinf] at h0
    exact h0

theorem fetchesRight_time {micros : ℤ} {h0 : 0 ≤ micros} {hle : micros ≤ microsPerDay} :
    FetchesRight C target (.time micros h0 hle) := by
  intro junk
  cases target with
  | date => trivial
  | time => exact ⟨trivial, (holdsSecond_timeStruct_iff h0 hle _).mpr rfl⟩
  | timestamp =>
    simp only [microsPerDay] at hle
    have hfits : i64.Fits micros := fits_i64.mpr (by omega)
    have hfin : EngineTimestamp.IsFinite micros := by
      simp only [EngineTimestamp.IsFinite, EngineTimestamp.infinity]
      omega
    have hyear : YearFits (micros / microsPerDay) := by
      rw [yearFits_iff]
      simp only [microsPerDay]
      omega
    have hsecond : micros / microsPerSec % 86400 = micros % microsPerDay / microsPerSec := by
      simp only [microsPerDay, microsPerSec]
      omega
    simp only [getTemporalData, getTimestampData, storeTimestamp_of_finite hfits hfin]
    refine ⟨trivial, (holdsDay_dateStruct_iff _).mpr hyear, ?_, rfl⟩
    exact (holdsSecond_timeStruct_iff (Int.emod_nonneg _ (by decide))
      (Int.emod_lt_of_pos _ (by decide)).le _).mpr hsecond

end DatesAndTimes

/-- A fetch as a date, a time or a timestamp fails or stores the civil fields of the value
exactly when the value is fetchable as the C type. -/
theorem fetches_right_iff (C : TextCasts) (target : TemporalTarget) (v : TemporalValue) :
    FetchesRight C target v ↔ Fetchable target v := by
  match target, v with
  | .date, .date days _ => exact fetchesRight_date_date_iff
  | .time, .date days _ => exact iff_of_true (fun _ => trivial) trivial
  | .timestamp, .date days _ => exact fetchesRight_date_timestamp_iff
  | .date, .time .. => exact iff_of_true fetchesRight_time trivial
  | .time, .time .. => exact iff_of_true fetchesRight_time trivial
  | .timestamp, .time .. => exact iff_of_true fetchesRight_time trivial
  | target, .timestamp .sec value _ => exact fetchesRight_sec_iff
  | target, .timestamp .ms value _ => exact fetchesRight_ms_iff
  | target, .timestamp .us value _ => exact fetchesRight_us_iff
  | target, .timestamp .ns value _ => exact fetchesRight_ns_iff

/-- `'infinity'::TIMESTAMP` fetched as a time : there is no such cast, and the call
succeeds. -/
theorem infinity_not_fetched_right :
    ¬FetchesRight ⟨fun _ => none, fun _ => none, fun _ => none, fun _ _ => ""⟩ .time
      (.timestamp .us (2 ^ 63 - 1) (by decide)) := by
  intro h
  exact absurd (h 0).1 (by decide : ¬EngineTimestamp.IsFinite (2 ^ 63 - 1))

end HaybarnOdbc
