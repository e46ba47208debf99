import HaybarnOdbc.Intervals

/-!
# The value of an interval struct

What the day-time structs of `odbc_interval.cpp` denote, for every interval, also those on
which a number wraps or whose parts have different signs. The setters take the magnitudes of
the days and of the microseconds apart, and one sign for both. `SetSecond` flattens days,
hours and minutes into `second` and leaves the seconds of the last minute out.
-/

namespace HaybarnOdbc

open MachineInt MachineInt.Calc

/-! ## What the setters leave, with or without wrapping -/

namespace OdbcInterval

variable (iv : Interval) (s : SqlIntervalStruct)

theorem wrap_u32 (n : ℤ) : u32.wrap n = n % 2 ^ 32 := rfl

/-- Only the last conversion of `SetDay` can wrap. -/
theorem setDay_result :
    (setDay iv s).result = { s with intervalType := .day, day := u32.wrap iv.totalDays } := by
  have hm := fits_i32.mp iv.months_fits
  have hd := fits_i32.mp iv.days_fits
  have hmonths : i64.wrap (iv.months * daysPerMonth) = iv.months * daysPerMonth := by
    refine IntType.wrap_of_fits (by decide) (fits_i64.mpr ?_)
    simp only [daysPerMonth]
    omega
  have hdays : i64.wrap (iv.days + iv.months * daysPerMonth) =
      iv.days + iv.months * daysPerMonth := by
    refine IntType.wrap_of_fits (by decide) (fits_i64.mpr ?_)
    simp only [daysPerMonth]
    omega
  have habs : i64.wrap iv.totalDays = iv.totalDays := by
    refine IntType.wrap_of_fits (by decide) (fits_i64.mpr ?_)
    simp only [Interval.totalDays, daysPerMonth]
    omega
  simp only [setDay, result_bind, result_conv, result_pure, hmonths, hdays]
  exact congrArg (fun days => { s with intervalType := .day, day := u32.wrap days }) habs

/-- The absolute value of the microseconds, but for the lowest number. -/
theorem absMicros_result (hm : -2 ^ 63 < iv.micros) : (absMicros iv).result = iv.totalMicros :=
  (exact_absMicros hm).1

/-- The smallest number of the engine has no absolute value. -/
theorem absMicros_lowest (hm : iv.micros = -2 ^ 63) : (absMicros iv).result = -2 ^ 63 := by
  have hneg : i64.wrap (2 ^ 63) = -2 ^ 63 := by simp [IntType.wrap, i64]
  have habs : (iv.micros.natAbs : ℤ) = 2 ^ 63 := by omega
  unfold absMicros conv
  rw [habs, hneg]

/-- What `SetHour` and `SetDayToHour` leave in `fraction`. -/
def hourRest : ℤ := u32.wrap ((absMicros iv).result.tmod microsPerHour)

/-- The rest of an hour fits its field. -/
theorem hourRest_fits : u32.Fits (hourRest iv) := IntType.fits_wrap (by decide) _

/-- What a day-to-hour target holds. -/
theorem setDayToHour_result :
    (setDayToHour iv s).result =
      { s with
        intervalType := .dayToHour, day := u32.wrap iv.totalDays
        hour := u32.wrap ((absMicros iv).result.tdiv microsPerHour), fraction := hourRest iv } := by
  simp only [setDayToHour, result_bind, result_conv, result_pure, setDay_result]
  rfl

/-- The minutes are taken out of the fraction. -/
theorem splitMinutes_result {q : IntervalType} {s : SqlIntervalStruct}
    (hf : u32.Fits s.fraction) :
    (splitMinutes q s).result =
      { s with
        intervalType := q, minute := s.fraction / microsPerMinute
        fraction := s.fraction % microsPerMinute } :=
  (exact_splitMinutes hf).1

/-- So are the seconds. -/
theorem splitSeconds_result {q : IntervalType} {s : SqlIntervalStruct}
    (hf : u32.Fits s.fraction) :
    (splitSeconds q s).result =
      { s with
        intervalType := q, second := s.fraction / microsPerSec
        fraction := s.fraction % microsPerSec } :=
  (exact_splitSeconds hf).1

/-- What a day-to-minute target holds. -/
theorem setDayToMinute_result :
    (setDayToMinute iv s).result =
      { s with
        intervalType := .dayToMinute, day := u32.wrap iv.totalDays
        hour := u32.wrap ((absMicros iv).result.tdiv microsPerHour)
        minute := hourRest iv / microsPerMinute
        fraction := hourRest iv % microsPerMinute } := by
  rw [setDayToMinute, result_bind, setDayToHour_result, splitMinutes_result]
  exact hourRest_fits iv

/-- What a day-to-second target holds. -/
theorem setDayToSecond_result :
    (setDayToSecond iv s).result =
      { s with
        intervalType := .dayToSecond, day := u32.wrap iv.totalDays
        hour := u32.wrap ((absMicros iv).result.tdiv microsPerHour)
        minute := hourRest iv / microsPerMinute
        second := hourRest iv % microsPerMinute / microsPerSec
        fraction := hourRest iv % microsPerMinute % microsPerSec } := by
  have hrest : u32.Fits (hourRest iv % microsPerMinute) := by
    obtain ⟨h0, hlt⟩ := fits_u32.mp (hourRest_fits iv)
    refine fits_u32.mpr ?_
    simp only [microsPerMinute]
    omega
  rw [setDayToSecond, result_bind, setDayToMinute_result, splitSeconds_result]
  exact hrest

/-- The rest of an hour. -/
theorem hourRest_eq (hm : -2 ^ 63 < iv.micros) :
    hourRest iv = iv.totalMicros % microsPerHour := by
  have h0 := iv.totalMicros_nonneg
  have hmod : iv.totalMicros.tmod microsPerHour = iv.totalMicros % microsPerHour :=
    Int.tmod_eq_emod_of_nonneg h0
  rw [hourRest, absMicros_result iv hm, hmod, wrap_u32]
  simp only [microsPerHour]
  omega

/-- What an hour target holds. -/
theorem setHour_result :
    (setHour iv s).result =
      { s with
        intervalType := .hour, day := u32.wrap iv.totalDays
        hour := u32.wrap (u32.wrap (u32.wrap iv.totalDays * hoursPerDay) +
          u32.wrap ((absMicros iv).result.tdiv microsPerHour))
        fraction := hourRest iv } := by
  have hday := setDay_result iv s
  unfold setHour hourRest
  generalize setDay iv s = d at hday ⊢
  generalize absMicros iv = a
  rw [result_bind, hday]
  rfl

/-- What a minute target holds. -/
theorem setMinute_result :
    (setMinute iv s).result =
      { s with
        intervalType := .minute, day := u32.wrap iv.totalDays, hour := (setHour iv s).result.hour
        minute := u32.wrap (u32.wrap ((setHour iv s).result.hour * minsPerHour) +
          hourRest iv / microsPerMinute)
        fraction := u32.wrap ((hourRest iv).tmod microsPerMinute) } := by
  have hhour := setHour_result iv s
  have hdiv : (hourRest iv).tdiv microsPerMinute = hourRest iv / microsPerMinute :=
    Int.tdiv_eq_ediv_of_nonneg (fits_u32.mp (hourRest_fits iv)).1
  unfold setMinute
  rw [← hdiv]
  generalize setHour iv s = h at hhour ⊢
  rw [result_bind, hhour]
  rfl

/-- What a second target holds. -/
theorem setSecond_result :
    (setSecond iv s).result =
      { (setMinute iv s).result with
        intervalType := .second
        second := u32.wrap ((setMinute iv s).result.minute * secsPerMinute)
        fraction := u32.wrap ((absMicros iv).result.tmod microsPerSec) } := by
  unfold setSecond
  generalize setMinute iv s = x
  generalize absMicros iv = a
  rfl

/-- The whole minutes only, and no more than 32 bits of them. -/
theorem second_setSecond (hm : -2 ^ 63 < iv.micros) :
    (setSecond iv s).result.second =
      (86400 * (iv.totalDays % 2 ^ 32) + iv.totalMicros / microsPerMinute * 60) % 2 ^ 32 := by
  have h0 := iv.totalMicros_nonneg
  have hdiv : iv.totalMicros.tdiv microsPerHour = iv.totalMicros / microsPerHour :=
    Int.tdiv_eq_ediv_of_nonneg h0
  rw [setSecond_result, setMinute_result, setHour_result, hourRest_eq iv hm,
    absMicros_result iv hm, hdiv]
  simp only [wrap_u32, hoursPerDay, minsPerHour, secsPerMinute, microsPerHour, microsPerMinute]
  omega

theorem second_setSecond_lt : (setSecond iv s).result.second < 2 ^ 32 := by
  rw [setSecond_result]
  exact (fits_u32.mp (IntType.fits_wrap (by decide) _)).2

end OdbcInterval

/-! ## The flattened form -/

/-- The single field of seconds says what the fields of the structured form say, and the
fractions are the same. -/
structure Flattens (flat struct : SqlIntervalStruct) : Prop where
  second : flat.second =
    86400 * struct.day + 3600 * struct.hour + 60 * struct.minute + struct.second
  fraction : flat.fraction = struct.fraction

section Flat

open OdbcInterval

variable {iv : Interval} {s t : SqlIntervalStruct}

/-- The seconds of the structured form : those of the days it keeps, and all others. -/
theorem setDayToSecond_seconds (hm : -2 ^ 63 < iv.micros) :
    86400 * (setDayToSecond iv t).result.day + 3600 * (setDayToSecond iv t).result.hour +
        60 * (setDayToSecond iv t).result.minute + (setDayToSecond iv t).result.second =
      86400 * (iv.totalDays % 2 ^ 32) + iv.totalMicros / microsPerSec := by
  have h0 := iv.totalMicros_nonneg
  have hlt := Interval.totalMicros_le hm
  have hdiv : iv.totalMicros.tdiv microsPerHour = iv.totalMicros / microsPerHour :=
    Int.tdiv_eq_ediv_of_nonneg h0
  have hhour : u32.wrap (iv.totalMicros / microsPerHour) = iv.totalMicros / microsPerHour := by
    refine IntType.wrap_of_fits (by decide) (fits_u32.mpr ?_)
    simp only [microsPerHour]
    omega
  rw [setDayToSecond_result, hourRest_eq iv hm, absMicros_result iv hm, hdiv, hhour, wrap_u32]
  generalize iv.totalDays % 2 ^ 32 = d
  simp only [microsPerHour, microsPerMinute, microsPerSec]
  omega

/-- The fraction is what is left of a second. -/
theorem setDayToSecond_fraction (hm : -2 ^ 63 < iv.micros) :
    (setDayToSecond iv t).result.fraction = iv.totalMicros % microsPerSec := by
  rw [setDayToSecond_result, hourRest_eq iv hm]
  simp only [microsPerHour, microsPerMinute, microsPerSec]
  omega

/-- Leaving out the seconds of the last minute, and whatever 32 bits do not hold, changes
nothing only when there is neither. -/
theorem whole_minutes_iff {d q : ℤ} (hd : 0 ≤ d) (hq : 0 ≤ q) :
    (86400 * d + q / 60 * 60) % 2 ^ 32 = 86400 * d + q ↔ 86400 * d + q < 2 ^ 32 ∧ q % 60 = 0 := by
  omega

/-- The two targets hold the same time just if the seconds fit. -/
theorem setSecond_flattens_iff (hm : -2 ^ 63 < iv.micros) :
    Flattens (setSecond iv s).result (setDayToSecond iv t).result ↔
      86400 * (iv.totalDays % 2 ^ 32) + iv.totalMicros / microsPerSec < 2 ^ 32 ∧
        iv.totalMicros / microsPerSec % 60 = 0 := by
  have h0 := iv.totalMicros_nonneg
  have hmod : iv.totalMicros.tmod microsPerSec = iv.totalMicros % microsPerSec :=
    Int.tmod_eq_emod_of_nonneg h0
  have hfraction : (setSecond iv s).result.fraction = (setDayToSecond iv t).result.fraction := by
    rw [setDayToSecond_fraction hm, setSecond_result, absMicros_result iv hm, hmod]
    refine IntType.wrap_of_fits (by decide) (fits_u32.mpr ?_)
    simp only [microsPerSec]
    omega
  have hminutes : iv.totalMicros / microsPerMinute = iv.totalMicros / microsPerSec / 60 := by
    simp only [microsPerMinute, microsPerSec]
    omega
  have hd : 0 ≤ iv.totalDays % 2 ^ 32 := Int.emod_nonneg _ (by decide)
  have hq : 0 ≤ iv.totalMicros / microsPerSec := Int.ediv_nonneg h0 (by decide)
  rw [← whole_minutes_iff hd hq, ← hminutes, ← second_setSecond iv s hm,
    ← setDayToSecond_seconds hm (t := t)]
  exact ⟨fun h => h.second, fun h => ⟨h, hfraction⟩⟩

/-- The structured form makes too many hours of the smallest number of microseconds. -/
theorem not_flattens_lowest (hm : iv.micros = -2 ^ 63) :
    ¬Flattens (setSecond iv s).result (setDayToSecond iv t).result := by
  rintro ⟨hflat, -⟩
  have hlt := second_setSecond_lt iv s
  have hday : 0 ≤ iv.totalDays % 2 ^ 32 := Int.emod_nonneg _ (by decide)
  have hrest := (fits_u32.mp (hourRest_fits iv)).1
  have htdiv : (-2 ^ 63 : ℤ).tdiv microsPerHour = -2562047788 := by decide
  have hhour : u32.wrap (-2562047788) = 1732919508 := by decide
  rw [setDayToSecond_result, absMicros_lowest iv hm, htdiv, hhour, wrap_u32] at hflat
  generalize iv.totalDays % 2 ^ 32 = d at hday hflat
  simp only [microsPerMinute, microsPerSec] at hflat
  omega

/-- The sign is none of it. -/
theorem flattens_setSignal :
    Flattens (setSignal iv s) (setSignal iv t) ↔ Flattens s t := by
  obtain ⟨sign, hs⟩ := setSignal_eq iv s
  obtain ⟨sign', ht⟩ := setSignal_eq iv t
  rw [hs, ht]
  exact ⟨fun h => ⟨h.second, h.fraction⟩, fun h => ⟨h.second, h.fraction⟩⟩

end Flat

/-- The seconds of the flattened form are those of the structured form exactly when they fit
and none is left beside the whole minutes. -/
theorem interval_data_flattens_iff (tryCast : String → Except String Interval) (iv : Interval)
    (target target' : SqlIntervalStruct) :
    ∃ x y, getIntervalData tryCast (.interval iv) .second target = .ok x ∧
      getIntervalData tryCast (.interval iv) .dayToSecond target' = .ok y ∧
      (Flattens x.result y.result ↔
        86400 * (iv.totalDays % 2 ^ 32) + iv.totalMicros / microsPerSec < 2 ^ 32 ∧
          iv.totalMicros / microsPerSec % 60 = 0) := by
  refine ⟨_, _, rfl, rfl, ?_⟩
  rw [result_bind, result_bind, result_pure, result_pure, flattens_setSignal]
  have hfits := fits_i64.mp iv.micros_fits
  obtain hm | hm : -2 ^ 63 < iv.micros ∨ iv.micros = -2 ^ 63 := by omega
  · exact setSecond_flattens_iff hm
  · have hlong : ¬(86400 * (iv.totalDays % 2 ^ 32) + iv.totalMicros / microsPerSec < 2 ^ 32 ∧
        iv.totalMicros / microsPerSec % 60 = 0) := by
      have hday : 0 ≤ iv.totalDays % 2 ^ 32 := Int.emod_nonneg _ (by decide)
      simp only [Interval.totalMicros, hm, microsPerSec]
      omega
    exact iff_of_false (not_flattens_lowest hm) hlong

/-- Five seconds after a quarter past one : the flattened form is five seconds short. -/
theorem quarter_past_one_short :
    ∃ x y, getIntervalData (fun _ => .error "")
        (.interval ⟨0, 0, 4505000000, by decide, by decide, by decide⟩) .second
        ⟨.day, false, 0, 0, 0, 0, 0⟩ = .ok x ∧
      getIntervalData (fun _ => .error "")
        (.interval ⟨0, 0, 4505000000, by decide, by decide, by decide⟩) .dayToSecond
        ⟨.day, false, 0, 0, 0, 0, 0⟩ = .ok y ∧
      x.result.second = 4500 ∧ ¬Flattens x.result y.result := by
  refine ⟨_, _, rfl, rfl, by decide, fun h => ?_⟩
  exact absurd h.second (by decide)

/-! ## The sign -/

/-- The microseconds of an interval, with months of 30 days. -/
def Interval.value (iv : Interval) : ℤ :=
  microsPerDay * (daysPerMonth * iv.months + iv.days) + iv.micros

/-- The microseconds a day-time struct says. -/
def SqlIntervalStruct.value (s : SqlIntervalStruct) : ℤ :=
  (if s.intervalSign then -1 else 1) *
    (microsPerDay * s.day + microsPerHour * s.hour + microsPerMinute * s.minute +
      microsPerSec * s.second + s.fraction)

/-- The months, the days with those of the months, and the microseconds have one sign. -/
def Interval.SignsAgree (iv : Interval) : Prop :=
  0 ≤ iv.months ∧ 0 ≤ daysPerMonth * iv.months + iv.days ∧ 0 ≤ iv.micros ∨
    iv.months ≤ 0 ∧ daysPerMonth * iv.months + iv.days ≤ 0 ∧ iv.micros ≤ 0

instance (iv : Interval) : Decidable iv.SignsAgree :=
  inferInstanceAs (Decidable (_ ∨ _))

/-- The coarsest part that is not zero is negative. -/
def Interval.Negative (iv : Interval) : Prop :=
  iv.months < 0 ∨ iv.months = 0 ∧ (iv.days < 0 ∨ iv.days = 0 ∧ iv.micros < 0)

instance (iv : Interval) : Decidable iv.Negative := inferInstanceAs (Decidable (_ ∨ _))

section Sign

open OdbcInterval

variable {iv : Interval} {s : SqlIntervalStruct}

/-- The sign is that of the interval. -/
theorem intervalSign_setSignal : (setSignal iv s).intervalSign = decide iv.Negative := by
  unfold setSignal
  split
  · rename_i hmonths
    exact decide_eq_decide.mpr (by unfold Interval.Negative; omega)
  · split
    · rename_i hmonths hdays
      exact decide_eq_decide.mpr (by unfold Interval.Negative; omega)
    · rename_i hmonths hdays
      exact decide_eq_decide.mpr (by unfold Interval.Negative; omega)

/-- The magnitudes of the days and of the microseconds are taken apart. -/
theorem setDayToSecond_magnitude (hm : -2 ^ 63 < iv.micros) :
    microsPerDay * (setDayToSecond iv s).result.day +
          microsPerHour * (setDayToSecond iv s).result.hour +
        microsPerMinute * (setDayToSecond iv s).result.minute +
      microsPerSec * (setDayToSecond iv s).result.second +
        (setDayToSecond iv s).result.fraction =
      microsPerDay * (iv.totalDays % 2 ^ 32) + iv.totalMicros := by
  have hseconds := setDayToSecond_seconds hm (t := s)
  have hfraction := setDayToSecond_fraction hm (t := s)
  simp only [microsPerDay, microsPerHour, microsPerMinute, microsPerSec] at *
  omega

/-- The value is the magnitude with the sign. -/
theorem value_setSignal {magnitude : ℤ}
    (h : microsPerDay * s.day + microsPerHour * s.hour + microsPerMinute * s.minute +
      microsPerSec * s.second + s.fraction = magnitude) :
    (setSignal iv s).value = if iv.Negative then -magnitude else magnitude := by
  have hsign : (setSignal iv s).intervalSign = decide iv.Negative := intervalSign_setSignal
  obtain ⟨sign, hs⟩ := setSignal_eq iv s
  rw [hs] at hsign
  rw [hs, SqlIntervalStruct.value, hsign, h]
  by_cases hneg : iv.Negative
  · rw [if_pos (decide_eq_true hneg), if_pos hneg, neg_one_mul]
  · rw [if_neg (mt of_decide_eq_true hneg), if_neg hneg, one_mul]

/-- The value is that of the interval just if the signs agree and the days fit. -/
theorem value_setDayToSecond_iff (hm : -2 ^ 63 < iv.micros) :
    (setSignal iv (setDayToSecond iv s).result).value = iv.value ↔
      iv.SignsAgree ∧ iv.totalDays < 2 ^ 32 := by
  have hmonths := fits_i32.mp iv.months_fits
  have hdays := fits_i32.mp iv.days_fits
  have hmicros := fits_i64.mp iv.micros_fits
  rw [value_setSignal (setDayToSecond_magnitude hm)]
  simp only [Interval.value, Interval.SignsAgree, Interval.totalDays, Interval.totalMicros,
    microsPerDay, daysPerMonth]
  by_cases hneg : iv.Negative
  · rw [if_pos hneg]
    unfold Interval.Negative at hneg
    omega
  · rw [if_neg hneg]
    unfold Interval.Negative at hneg
    omega

/-- For the lowest number it never is. -/
theorem value_ne_lowest (hm : iv.micros = -2 ^ 63) :
    (setSignal iv (setDayToSecond iv s).result).value ≠ iv.value := by
  have htdiv : (-2 ^ 63 : ℤ).tdiv microsPerHour = -2562047788 := by decide
  have htmod : (-2 ^ 63 : ℤ).tmod microsPerHour = -54775808 := by decide
  have hhour : u32.wrap (-2562047788) = 1732919508 := by decide
  have hrest : u32.wrap (-54775808) = 4240191488 := by decide
  rw [value_setSignal rfl, setDayToSecond_result, hourRest, absMicros_lowest iv hm, htdiv, htmod,
    hhour, hrest, wrap_u32]
  simp only [Interval.value, microsPerDay, microsPerHour, microsPerMinute, microsPerSec,
    daysPerMonth, hm]
  split
  · omega
  · omega

end Sign

/-- The structured form denotes the interval exactly when its parts agree in sign and their
magnitudes fit. -/
theorem interval_data_value_iff (tryCast : String → Except String Interval) (iv : Interval)
    (target : SqlIntervalStruct) :
    ∃ x, getIntervalData tryCast (.interval iv) .dayToSecond target = .ok x ∧
      (x.result.value = iv.value ↔
        iv.SignsAgree ∧ iv.totalDays < 2 ^ 32 ∧ -2 ^ 63 < iv.micros) := by
  refine ⟨_, rfl, ?_⟩
  rw [result_bind, result_pure]
  have hfits := fits_i64.mp iv.micros_fits
  obtain hm | hm : -2 ^ 63 < iv.micros ∨ iv.micros = -2 ^ 63 := by omega
  · exact (value_setDayToSecond_iff hm).trans
      ⟨fun h => ⟨h.1, h.2, hm⟩, fun h => ⟨h.1, h.2.1⟩⟩
  · exact iff_of_false (value_ne_lowest hm) fun h => (hm ▸ h.2.2).false

/-- One hour less than a day : the struct says an hour more. -/
theorem day_less_hour_value :
    ∃ x, getIntervalData (fun _ => .error "")
        (.interval ⟨0, 1, -3600000000, by decide, by decide, by decide⟩) .dayToSecond
        ⟨.day, false, 0, 0, 0, 0, 0⟩ = .ok x ∧
      x.result = ⟨.dayToSecond, false, 1, 1, 0, 0, 0⟩ ∧
      x.result.value ≠
        (⟨0, 1, -3600000000, by decide, by decide, by decide⟩ : Interval).value :=
  ⟨_, rfl, by decide, by decide⟩

end HaybarnOdbc
