import HaybarnOdbc.BlobText
import HaybarnOdbc.ColumnMeta
import HaybarnOdbc.TextReads
import HaybarnOdbc.TypeInfo

/-!
# Display sizes

`SQLColAttribute` answers how long the texts of a column get, so that an application can make a
buffer that holds any of them, with its terminator. Integers, decimal numbers and times keep to the
size of their type. Dates and timestamps do in the years of four digits
(`text_fits_displaySize`), and where they have no fraction in no other year
(`fourDigitYear_of_fits`). One call of `SQLGetData` returns the whole text then
(`displaySize_holds_text`).
-/

namespace HaybarnOdbc

open MachineInt Calendar

variable {ρ V α : Type}

/-! ## The lengths of dates and times -/

namespace TemporalText

/-- Leading zeros fill up to the length. -/
theorem le_length_leadingZeros (length n : ℕ) : length ≤ (leadingZeros length n).length := by
  rw [leadingZeros, List.length_append, List.length_replicate]
  omega

/-- Two digits are two characters. -/
theorem length_formatTwoDigits {n : ℕ} (h : n < 100) : (formatTwoDigits n).length = 2 := by
  rw [formatTwoDigits_eq h, length_leadingZeros (by decide) h]

/-- The length of a date is that of its year and six more. -/
theorem length_formatDate (d : Date) : (formatDate d.year d.month d.day).length =
    (leadingZeros (yearLength (shownYear d.year)) (shownYear d.year).toNat).length + 6 +
      (suffix d.year).length := by
  obtain ⟨day, hday⟩ : ∃ day : ℕ, d.day = day := ⟨d.day.toNat, by have := d.day_pos; omega⟩
  have hday' : day < 100 := by
    have := d.day_le.trans (daysInMonth_le d.year d.month)
    omega
  rw [formatDate_eq, hday]
  simp only [List.length_append, List.length_cons,
    length_formatTwoDigits (d.month_le.trans_lt (by decide)), length_formatTwoDigits hday']
  omega

/-- The years of the engine have thirteen digits at most. -/
theorem length_formatDate_lt (d : Date) (hlow : -2 * 10 ^ 14 ≤ d.number)
    (hhigh : d.number < 2 * 10 ^ 14) : (formatDate d.year d.month d.day).length < 30 := by
  have hlow' := mt (d.lt_daysBeforeYear_iff (-10 ^ 12)).2
  have hhigh' := (d.lt_daysBeforeYear_iff (10 ^ 12)).1
  rw [(by decide : daysBeforeYear (-10 ^ 12) = -365242500000366)] at hlow'
  rw [(by decide : daysBeforeYear (10 ^ 12) = 365242499999634)] at hhigh'
  have hfirst := hlow' (by omega)
  have hlast := hhigh' (by omega)
  have hyear : (shownYear d.year).toNat < 10 ^ 13 := by
    unfold shownYear
    split <;> omega
  have hdigits := length_digitsText_le (by decide) hyear
  have hsuffix : (suffix d.year).length ≤ 5 := by
    unfold suffix
    split <;> decide
  have hshort : yearLength (shownYear d.year) ≤ 8 := by
    unfold yearLength
    split <;> split <;> split <;> split <;> omega
  rw [length_formatDate, leadingZeros, List.length_append, List.length_replicate]
  omega

/-- A date has ten characters in the years of four digits, and more in all others. -/
theorem length_formatDate_le_iff (d : Date) :
    (formatDate d.year d.month d.day).length ≤ 10 ↔ 1 ≤ d.year ∧ d.year ≤ 9999 := by
  have hle := le_length_leadingZeros (yearLength (shownYear d.year)) (shownYear d.year).toNat
  rw [length_formatDate]
  constructor
  · intro hten
    by_cases hbc : d.year ≤ 0
    · have hsuffix : (suffix d.year).length = 5 := by
        rw [suffix, if_pos hbc]
        rfl
      omega
    · refine ⟨by omega, ?_⟩
      by_contra hlong
      have hyear : 5 ≤ yearLength (shownYear d.year) := by
        rw [shownYear, if_neg hbc, yearLength, if_pos (by omega)]
        omega
      omega
  · rintro ⟨hfirst, hlast⟩
    have hshown : shownYear d.year = d.year := if_neg (by omega)
    have hlength : yearLength d.year = 4 := by
      rw [yearLength, if_neg (by omega), if_neg (by omega), if_neg (by omega), if_neg (by omega)]
    rw [hshown, hlength, length_leadingZeros (by decide) (by omega), suffix, if_neg (by omega),
      List.length_nil]

/-- The texts of the dates that are infinite are shorter than any other. -/
theorem length_dateText_le_iff (days : ℤ) : (dateText days).length ≤ 10 ↔
    (EngineDate.IsFinite days → ∀ d : Date, d.number = days + EngineDate.epochNumber →
      1 ≤ d.year ∧ d.year ≤ 9999) := by
  by_cases hinf : days = EngineDate.infinity
  · rw [dateText, if_pos hinf]
    exact iff_of_true (by decide) fun hfin => absurd hinf hfin.1
  by_cases hninf : days = -EngineDate.infinity
  · rw [dateText, if_neg hinf, if_pos hninf]
    exact iff_of_true (by decide) fun hfin => absurd hninf hfin.2
  obtain ⟨d, hd, hconvert⟩ := EngineDate.convert_spec days
  rw [dateText, if_neg hinf, if_neg hninf, hconvert]
  dsimp only
  rw [length_formatDate_le_iff]
  constructor
  · intro hyear _ e he
    rw [Date.eq_of_number_eq (he.trans hd.symm)]
    exact hyear
  · exact fun hyear => hyear ⟨hinf, hninf⟩ d hd

theorem dateText_ne_nil (days : ℤ) : dateText days ≠ [] := by
  by_cases hinf : days = EngineDate.infinity
  · rw [dateText, if_pos hinf]
    exact List.cons_ne_nil _ _
  by_cases hninf : days = -EngineDate.infinity
  · rw [dateText, if_neg hinf, if_pos hninf]
    exact List.cons_ne_nil _ _
  obtain ⟨d, -, hconvert⟩ := EngineDate.convert_spec days
  rw [dateText, if_neg hinf, if_neg hninf, hconvert]
  refine List.ne_nil_of_length_pos ?_
  dsimp only
  rw [length_formatDate]
  omega

/-- The fraction has a point and as many digits as there is room for. -/
theorem length_fraction_le {micros : ℤ} {digits : ℕ} (h : timeLength micros 0 ≤ 9 + digits) :
    (fraction micros 0).length ≤ 1 + digits := by
  rw [fraction, if_neg (not_not.2 rfl), List.append_nil]
  by_cases hlong : 8 < timeLength micros 0
  · rw [if_pos hlong, List.length_cons, List.length_take]
    omega
  · rw [if_neg hlong, List.length_nil]
    exact Nat.zero_le _

/-- A fraction has a point and at most six digits. -/
theorem length_fraction_micros (micros : ℤ) : (fraction micros 0).length ≤ 1 + 6 := by
  refine length_fraction_le ?_
  rw [timeLength, if_neg (not_not.2 rfl)]
  split <;> omega

/-- Of milliseconds it has at most three. -/
theorem length_fraction_millis {millis : ℕ} (h : millis < 1000) :
    (fraction ((millis * 1000 : ℕ) : ℤ) 0).length ≤ 1 + 3 := by
  have hzeros : 3 ≤ trailingZeros (leadingZeros 6 (millis * 1000)) :=
    three_le_trailingZeros ⟨millis, h⟩
  refine length_fraction_le ?_
  rw [timeLength, if_neg (not_not.2 rfl), Int.toNat_natCast]
  split <;> omega

/-- Of nanoseconds it has at most nine. -/
theorem length_fraction_nanos (micros : ℤ) {nanos : ℕ} (h : nanos < 1000) :
    (fraction micros ((nanos * 1000 : ℕ) : ℤ)).length ≤ 1 + 9 := by
  by_cases hzero : nanos = 0
  · subst hzero
    exact (length_fraction_micros micros).trans (by decide)
  have hzeros : 3 ≤ trailingZeros (leadingZeros 6 (nanos * 1000)) :=
    three_le_trailingZeros ⟨nanos, h⟩
  have hne : ((nanos * 1000 : ℕ) : ℤ) ≠ 0 := by omega
  have hlength : timeLength micros ((nanos * 1000 : ℕ) : ℤ) = 15 := if_pos hne
  rw [fraction, hlength, if_pos hne, if_pos (by decide), Int.toNat_natCast, List.length_append,
    List.length_cons, List.length_take, List.length_take]
  omega

/-- A time has eight characters in front of its fraction. -/
theorem length_formatTime {time : ℤ} (h0 : 0 ≤ time) (hle : time ≤ microsPerDay) :
    ∃ micros : ℕ, micros < 10 ^ 6 ∧ time % 1000000 = micros ∧
      ∀ picos, (formatTime time picos).length = 8 + (fraction micros picos).length := by
  obtain ⟨hour, minute, second, micros, hhour, hminute, hsecond, hmicros, htime, htext⟩ :=
    exists_fields h0 hle
  refine ⟨micros, hmicros, ?_, fun picos => ?_⟩
  · simp only [EngineTime.fromTime, minsPerHour, secsPerMinute, microsPerSec] at htime
    omega
  · have hlength : (leadingZeros 2 hour).length = 2 := length_leadingZeros (by decide) hhour
    rw [htext picos]
    simp only [List.length_append, List.length_cons, hlength,
      length_formatTwoDigits (hminute.trans (by decide)),
      length_formatTwoDigits (hsecond.trans (by decide))]
    omega

/-- A timestamp has a date, a space, and a time. -/
theorem length_formatTimestamp (date : ℤ) {time : ℤ} (h0 : 0 ≤ time) (hle : time ≤ microsPerDay) :
    ∃ (d : Date) (micros : ℕ), d.number = date + EngineDate.epochNumber ∧ micros < 10 ^ 6 ∧
      time % 1000000 = micros ∧ ∀ picos, (formatTimestamp date time picos).length =
        (formatDate d.year d.month d.day).length + 9 + (fraction micros picos).length := by
  obtain ⟨d, hd, hconvert⟩ := EngineDate.convert_spec date
  obtain ⟨micros, hmicros, hmod, hlength⟩ := length_formatTime h0 hle
  refine ⟨d, micros, hd, hmicros, hmod, fun picos => ?_⟩
  rw [formatTimestamp, hconvert]
  dsimp only
  rw [List.length_append, List.length_cons, hlength]
  omega

/-- The text of microseconds, if there is one. -/
theorem timestampText_micros_eq {value : ℤ} {text : List Char} (h64 : i64.Fits value)
    (hfin : EngineTimestamp.IsFinite value) (h : timestampText false value = .ok text) :
    text = formatTimestamp (value / microsPerDay) (value % microsPerDay) 0 := by
  rw [timestampText_eq_map hfin, convertTimestamp_eq h64 hfin] at h
  by_cases hday : -9223372022400000000 ≤ value
  · rw [if_pos hday] at h
    exact (Except.ok.inj h).symm
  · rw [if_neg hday] at h
    cases h

/-- The text of nanoseconds, if there is one. -/
theorem timestampText_nanos_eq {value : ℤ} {text : List Char} (h64 : i64.Fits value)
    (hfin : EngineTimestamp.IsFinite value) (h : timestampText true value = .ok text) :
    text = formatTimestamp (value / 1000 / microsPerDay) (value / 1000 % microsPerDay)
      (value % 1000 * 1000) := by
  rw [timestampTextNs_eq_map hfin, convertTimestampNs_eq h64] at h
  by_cases hday : -9223286400000000000 ≤ value
  · rw [if_pos hday] at h
    exact (Except.ok.inj h).symm
  · rw [if_neg hday] at h
    cases h

end TemporalText

/-! ## Values of a column -/

namespace TemporalValue

open TemporalText

/-- The type of a column of such values. -/
def columnType : TemporalValue → DescribeCol.LogicalTypeId
  | date .. => .date
  | time .. => .time
  | timestamp .sec .. => .timestampSec
  | timestamp .ms .. => .timestampMs
  | timestamp .us .. => .timestamp
  | timestamp .ns .. => .timestampNs

/-- The value is infinite, or in a year of four digits. -/
def FourDigitYear (v : TemporalValue) : Prop :=
  v.Finite → ∀ d : Date, d.number = v.civilDay + EngineDate.epochNumber →
    1 ≤ d.year ∧ d.year ≤ 9999

/-- The text of seconds or milliseconds is the one of as many microseconds. -/
theorem text_of_mul {value half : ℤ} {msg : String} {text : List Char}
    (h : (EngineTimestamp.tryMultiply value (half * 2)).elim (.error msg) (timestampText false) =
      .ok text) :
    text = formatTimestamp (value * (half * 2) / microsPerDay) (value * (half * 2) % microsPerDay)
      0 := by
  rw [EngineTimestamp.tryMultiply] at h
  by_cases hfits : i64.Fits (value * (half * 2))
  · rw [if_pos hfits] at h
    exact timestampText_micros_eq hfits (isFinite_of_even value half) h
  · rw [if_neg hfits] at h
    cases h

/-- The day of a timestamp, the microseconds of the day, and the nanoseconds that are left of
it. -/
def WrittenAs (u : TimestampUnit) (value : ℤ) (text : List Char) : Prop :=
  ∃ (time : ℤ) (rest : ℕ), 0 ≤ time ∧ time ≤ microsPerDay ∧ rest < 1000 ∧
    time * 1000 + rest = value % (u.perSec * 86400) * (nanosPerSec / u.perSec) ∧
    text = formatTimestamp (value / (u.perSec * 86400)) time ((rest * 1000 : ℕ) : ℤ)

/-- Of units that are not shorter than microseconds nothing is left. -/
theorem writtenAs_of_micros {u : TimestampUnit} {value micros : ℤ} {text : List Char}
    (hmicros : micros * u.perSec = value * 1000000)
    (htext : text = formatTimestamp (micros / microsPerDay) (micros % microsPerDay) 0) :
    WrittenAs u value text := by
  have hday : micros / microsPerDay = value / (u.perSec * 86400) := by
    cases u <;> simp only [microsPerDay, TimestampUnit.perSec] at hmicros ⊢ <;> omega
  rw [hday] at htext
  refine ⟨_, 0, Int.emod_nonneg _ (by decide), (Int.emod_lt_of_pos _ (by decide)).le, by decide, ?_,
    htext⟩
  cases u <;> simp only [microsPerDay, TimestampUnit.perSec, nanosPerSec] at hmicros ⊢ <;> omega

/-- What is written for a finite timestamp is its day and its time. -/
theorem toText_timestamp {u : TimestampUnit} {value : ℤ} {text : List Char} (h64 : i64.Fits value)
    (hfin : EngineTimestamp.IsFinite value) (h : (timestamp u value h64).toText = .ok text) :
    WrittenAs u value text := by
  cases u with
  | sec =>
    rw [toText_sec h64 hfin] at h
    refine writtenAs_of_micros ?_ (text_of_mul h)
    simp only [TimestampUnit.perSec]
    omega
  | ms =>
    rw [toText_ms h64 hfin] at h
    refine writtenAs_of_micros ?_ (text_of_mul h)
    simp only [TimestampUnit.perSec]
    omega
  | us => exact writtenAs_of_micros rfl (timestampText_micros_eq h64 hfin h)
  | ns =>
    have htext := timestampText_nanos_eq h64 hfin h
    obtain ⟨rest, hrest⟩ : ∃ rest : ℕ, value % 1000 = rest :=
      ⟨_, (Int.toNat_of_nonneg (by omega)).symm⟩
    have hday : value / 1000 / microsPerDay = value / (1000000000 * 86400) := by
      simp only [microsPerDay]
      omega
    rw [hday, hrest] at htext
    refine ⟨_, rest, Int.emod_nonneg _ (by decide), (Int.emod_lt_of_pos _ (by decide)).le,
      by omega, ?_, by rw [htext, Nat.cast_mul]; rfl⟩
    simp only [microsPerDay, TimestampUnit.perSec, nanosPerSec]
    omega

/-- The text of a timestamp that is infinite. -/
theorem toText_infinite {u : TimestampUnit} {value : ℤ} {text : List Char} (h64 : i64.Fits value)
    (hinf : ¬EngineTimestamp.IsFinite value) (h : (timestamp u value h64).toText = .ok text) :
    text = infinityText ∨ text = '-' :: infinityText := by
  rcases infinite_cases hinf with rfl | rfl
  · refine .inl ?_
    cases u <;> exact (Except.ok.inj h).symm
  · refine .inr ?_
    cases u <;> exact (Except.ok.inj h).symm

end TemporalValue

namespace DescribeCol

open Desc TemporalText TemporalValue
open Diag (CharType)

/-- The digits behind the second that a unit has, with the point. -/
def fractionSize : TimestampUnit → ℕ
  | .sec => 0
  | .ms => 1 + 3
  | .us => 1 + 6
  | .ns => 1 + 9

/-- A unit has no digits but its own. -/
theorem length_fraction_le_size {u : TimestampUnit} {value time : ℤ} {rest micros : ℕ}
    (hrest : rest < 1000) (hmicros : micros < 10 ^ 6) (hmod : time % 1000000 = micros)
    (hnanos : time * 1000 + rest = value % (u.perSec * 86400) * (nanosPerSec / u.perSec)) :
    (fraction micros ((rest * 1000 : ℕ) : ℤ)).length ≤ fractionSize u := by
  cases u with
  | sec =>
    simp only [TimestampUnit.perSec, nanosPerSec] at hnanos
    obtain ⟨rfl, rfl⟩ : rest = 0 ∧ micros = 0 := by omega
    decide
  | ms =>
    simp only [TimestampUnit.perSec, nanosPerSec] at hnanos
    obtain ⟨millis, rfl⟩ : ∃ millis, micros = millis * 1000 := ⟨micros / 1000, by omega⟩
    obtain rfl : rest = 0 := by omega
    exact length_fraction_millis (by omega)
  | us =>
    simp only [TimestampUnit.perSec, nanosPerSec] at hnanos
    obtain rfl : rest = 0 := by omega
    exact length_fraction_micros _
  | ns => exact length_fraction_nanos _ hrest

/-- The text of a finite timestamp has a date, a space and the seconds, and the fraction behind. -/
theorem length_of_timestamp {u : TimestampUnit} {value : ℤ} {text : List Char}
    (h64 : i64.Fits value) (hfin : EngineTimestamp.IsFinite value)
    (htext : (timestamp u value h64).toText = .ok text) :
    ∃ d : Date, d.number = value / (u.perSec * 86400) + EngineDate.epochNumber ∧
      (formatDate d.year d.month d.day).length + 9 ≤ text.length ∧
      text.length ≤ (formatDate d.year d.month d.day).length + 9 + fractionSize u := by
  obtain ⟨time, rest, h0, hle, hrest, hnanos, rfl⟩ := toText_timestamp h64 hfin htext
  obtain ⟨d, micros, hd, hmicros, hmod, hlength⟩ :=
    length_formatTimestamp (value / (u.perSec * 86400)) h0 hle
  have hfraction := length_fraction_le_size hrest hmicros hmod hnanos
  refine ⟨d, hd, ?_, ?_⟩
  · rw [hlength]
    omega
  · rw [hlength]
    omega

theorem ne_nil_of_toText {v : TemporalValue} {text : List Char} (htext : v.toText = .ok text) :
    text ≠ [] := by
  cases v with
  | date days h32 =>
    obtain rfl := Except.ok.inj htext
    exact dateText_ne_nil days
  | time micros h0 hle =>
    obtain rfl := Except.ok.inj htext
    obtain ⟨rest, -, -, hlength⟩ := length_formatTime h0 hle
    refine List.ne_nil_of_length_pos ?_
    rw [hlength]
    omega
  | timestamp u value h64 =>
    by_cases hfin : EngineTimestamp.IsFinite value
    · obtain ⟨d, -, hlow, -⟩ := length_of_timestamp h64 hfin htext
      exact List.ne_nil_of_length_pos (by omega)
    · rcases toText_infinite h64 hfin htext with rfl | rfl
      · exact List.cons_ne_nil _ _
      · exact List.cons_ne_nil _ _

/-- A timestamp with a year of four digits fits its display size. -/
theorem length_timestamp_le {u : TimestampUnit} {value : ℤ} {text : List Char}
    (h64 : i64.Fits value) (htext : (timestamp u value h64).toText = .ok text)
    (hyear : (timestamp u value h64).FourDigitYear) : text.length ≤ 19 + fractionSize u := by
  by_cases hfin : EngineTimestamp.IsFinite value
  · obtain ⟨d, hd, -, hhigh⟩ := length_of_timestamp h64 hfin htext
    have hten := (length_formatDate_le_iff d).2 (hyear hfin d hd)
    omega
  · rcases toText_infinite h64 hfin htext with rfl | rfl
    · exact (by decide : infinityText.length ≤ 19).trans (Nat.le_add_right _ _)
    · exact (by decide : ('-' :: infinityText).length ≤ 19).trans (Nat.le_add_right _ _)

/-- So does a time. -/
theorem length_time_le {micros : ℤ} (h0 : 0 ≤ micros) (hle : micros ≤ microsPerDay) :
    (formatTime micros 0).length ≤ 15 := by
  obtain ⟨rest, -, -, hlength⟩ := length_formatTime h0 hle
  have hfraction := length_fraction_micros rest
  rw [hlength]
  omega

/-- The text of a date, a time or a timestamp. -/
theorem length_temporal_le {v : TemporalValue} {text : List Char} (htext : v.toText = .ok text)
    (hyear : v.FourDigitYear) : text.length ≤ getDisplaySize ⟨v.columnType, 0, 0⟩ := by
  cases v with
  | date days h32 =>
    obtain rfl := Except.ok.inj htext
    exact (length_dateText_le_iff days).2 hyear
  | time micros h0 hle =>
    obtain rfl := Except.ok.inj htext
    exact length_time_le h0 hle
  | timestamp u value h64 =>
    have hlength := length_timestamp_le h64 htext hyear
    cases u with
    | sec | ms | us | ns => exact hlength

/-- No text of a date or time is longer than 63 characters. -/
theorem length_lt_of_toText {v : TemporalValue} {text : List Char} (htext : v.toText = .ok text) :
    text.length < 64 := by
  cases v with
  | date days h32 =>
    obtain rfl := Except.ok.inj htext
    obtain ⟨hlow, hhigh⟩ := fits_i32.1 h32
    by_cases hfin : EngineDate.IsFinite days
    · obtain ⟨d, hd, hconvert⟩ := EngineDate.convert_spec days
      rw [(by decide : EngineDate.epochNumber = 719162)] at hd
      have hlength := length_formatDate_lt d (by omega) (by omega)
      rw [dateText, if_neg hfin.1, if_neg hfin.2, hconvert]
      dsimp only
      omega
    · have hten := (length_dateText_le_iff days).2 fun hand => absurd hand hfin
      omega
  | time micros h0 hle =>
    have hlength := length_time_le h0 hle
    obtain rfl := Except.ok.inj htext
    omega
  | timestamp u value h64 =>
    obtain ⟨hlow, hhigh⟩ := fits_i64.1 h64
    have hsize : fractionSize u ≤ 10 := by cases u <;> decide
    by_cases hfin : EngineTimestamp.IsFinite value
    · obtain ⟨d, hd, -, hle⟩ := length_of_timestamp h64 hfin htext
      rw [(by decide : EngineDate.epochNumber = 719162)] at hd
      have hday : -2 * 10 ^ 14 ≤ d.number ∧ d.number < 2 * 10 ^ 14 := by
        rw [hd]
        cases u <;> simp only [TimestampUnit.perSec] <;> omega
      have hdate := length_formatDate_lt d hday.1 hday.2
      omega
    · have hyear : (timestamp u value h64).FourDigitYear := fun hand => absurd hand hfin
      have hlength := length_timestamp_le h64 htext hyear
      omega

/-- Without a fraction there is no room for a longer year. -/
theorem fourDigitYear_of_length_le {v : TemporalValue} {text : List Char}
    (htext : v.toText = .ok text) (hid : v.columnType ∈ [LogicalTypeId.date, .timestampSec])
    (hle : text.length ≤ getDisplaySize ⟨v.columnType, 0, 0⟩) : v.FourDigitYear := by
  cases v with
  | date days h32 =>
    obtain rfl := Except.ok.inj htext
    exact (length_dateText_le_iff days).1 hle
  | time micros h0 hle' =>
    change LogicalTypeId.time ∈ [LogicalTypeId.date, .timestampSec] at hid
    exact absurd hid (by decide)
  | timestamp u value h64 =>
    cases u with
    | sec =>
      change text.length ≤ 10 + 9 at hle
      intro hfin e he
      obtain ⟨d, hd, hlow, -⟩ := length_of_timestamp h64 hfin htext
      rw [Date.eq_of_number_eq (he.trans hd.symm)]
      exact (length_formatDate_le_iff d).1 (by omega)
    | ms =>
      change LogicalTypeId.timestampMs ∈ [LogicalTypeId.date, .timestampSec] at hid
      exact absurd hid (by decide)
    | us =>
      change LogicalTypeId.timestamp ∈ [LogicalTypeId.date, .timestampSec] at hid
      exact absurd hid (by decide)
    | ns =>
      change LogicalTypeId.timestampNs ∈ [LogicalTypeId.date, .timestampSec] at hid
      exact absurd hid (by decide)

/-- The text of a signed integer has a character for the sign. -/
theorem length_signed_le {bits k : ℕ} {n : ℤ} (hn : IntType.Fits ⟨true, bits⟩ n) (hk : 1 ≤ k)
    (hbits : 2 ^ (bits - 1) < 10 ^ k) :
    TypeInfo.intText n ≠ [] ∧ (TypeInfo.intText n).length ≤ k + 1 := by
  obtain ⟨hlow, hhigh⟩ : -2 ^ (bits - 1) ≤ n ∧ n < 2 ^ (bits - 1) := hn
  have hcast : ((2 ^ (bits - 1) : ℕ) : ℤ) = 2 ^ (bits - 1) := Nat.cast_pow 2 _
  have hdigits := length_digitsText_le hk (by omega : n.natAbs < 10 ^ k)
  unfold TypeInfo.intText
  by_cases h0 : n < 0
  · rw [if_pos h0]
    exact ⟨List.cons_ne_nil _ _, Nat.succ_le_succ hdigits⟩
  · rw [if_neg h0]
    exact ⟨digitsText_ne_nil _, Nat.le_succ_of_le hdigits⟩

theorem length_unsigned_le {bits k : ℕ} {n : ℤ} (hn : IntType.Fits ⟨false, bits⟩ n) (hk : 1 ≤ k)
    (hbits : 2 ^ bits ≤ 10 ^ k) :
    TypeInfo.intText n ≠ [] ∧ (TypeInfo.intText n).length ≤ k := by
  obtain ⟨hlow, hhigh⟩ : 0 ≤ n ∧ n < 2 ^ bits := hn
  have hcast : ((2 ^ bits : ℕ) : ℤ) = 2 ^ bits := Nat.cast_pow 2 _
  rw [TypeInfo.intText, if_neg (by omega)]
  exact ⟨digitsText_ne_nil _, length_digitsText_le hk (by omega)⟩

/-- The numbers of the type of a column. -/
def integerType : LogicalTypeId → Option IntType
  | .tinyint => some ⟨true, 8⟩
  | .utinyint => some ⟨false, 8⟩
  | .smallint => some ⟨true, 16⟩
  | .usmallint => some ⟨false, 16⟩
  | .integer => some ⟨true, 32⟩
  | .uinteger => some ⟨false, 32⟩
  | .bigint => some ⟨true, 64⟩
  | .ubigint => some ⟨false, 64⟩
  | .hugeint => some ⟨true, 128⟩
  | .uhugeint => some ⟨false, 128⟩
  | _ => none

/-- An integer fits its display size. -/
theorem length_integer_le {id : LogicalTypeId} {n : ℤ}
    (hfits : ∃ w ∈ integerType id, w.Fits n) :
    TypeInfo.intText n ≠ [] ∧ (TypeInfo.intText n).length ≤ getDisplaySize ⟨id, 0, 0⟩ := by
  obtain ⟨w, hw, hn⟩ := hfits
  cases id with
  | tinyint | smallint | integer | bigint | hugeint =>
    obtain rfl := Option.some_inj.1 hw
    exact length_signed_le hn (Nat.le_of_ble_eq_true rfl) (Nat.le_of_ble_eq_true rfl)
  | utinyint | usmallint | uinteger | ubigint | uhugeint =>
    obtain rfl := Option.some_inj.1 hw
    exact length_unsigned_le hn (Nat.le_of_ble_eq_true rfl) (Nat.le_of_ble_eq_true rfl)
  | _ => cases hw

/-- So does a decimal. -/
theorem length_decimal_le (x : DecimalValue) : decimalToString x ≠ [] ∧
    (decimalToString x).length ≤ getDisplaySize ⟨.decimal, x.width, x.scale⟩ := by
  have hunsigned : x.unsignedText ≠ [] ∧ x.unsignedText.length ≤ x.width + 1 := by
    unfold DecimalValue.unsignedText
    by_cases hs : x.scale = 0
    · rw [if_pos hs]
      exact ⟨digitsText_ne_nil _, Nat.le_succ_of_le (length_digitsText_le x.width_pos x.lt)⟩
    · rw [if_neg hs]
      have hmajor := x.length_majorText_le
      refine ⟨List.append_ne_nil_of_right_ne_nil _ (List.cons_ne_nil _ _), ?_⟩
      rw [List.length_append, List.length_cons, DecimalValue.length_minorText hs]
      omega
  rw [x.decimalToString_eq]
  refine ⟨List.append_ne_nil_of_right_ne_nil _ hunsigned.1, ?_⟩
  change _ ≤ x.width + 2
  have hsign : (if x.unscaled < 0 then ['-'] else []).length ≤ 1 := by
    split <;> decide
  rw [List.length_append]
  omega

/-- An integer, a decimal number, a date, a time or a timestamp. -/
inductive ShownValue
  | integer (id : LogicalTypeId) (n : ℤ) (fits : ∃ w ∈ integerType id, w.Fits n)
  | decimal (x : DecimalValue)
  | temporal (v : TemporalValue)

namespace ShownValue

/-- The type of a column of such values. -/
def columnType : ShownValue → LogicalType
  | integer id _ _ => ⟨id, 0, 0⟩
  | decimal x => ⟨.decimal, x.width, x.scale⟩
  | temporal v => ⟨v.columnType, 0, 0⟩

/-- The cast to a text. -/
def toText : ShownValue → Except String (List Char)
  | integer _ n _ => .ok (TypeInfo.intText n)
  | decimal x => .ok (decimalToString x)
  | temporal v => v.toText

/-- No date or timestamp out of the years of four digits. -/
def FourDigitYear : ShownValue → Prop
  | temporal v => v.FourDigitYear
  | _ => True

end ShownValue

/-- A text is not empty, and as long as the display size of its type at most, unless the year is
longer. -/
theorem text_fits_displaySize {v : ShownValue} {text : List Char} (htext : v.toText = .ok text) :
    text ≠ [] ∧ (v.FourDigitYear → text.length ≤ getDisplaySize v.columnType) := by
  cases v with
  | integer id n hfits =>
    obtain rfl := Except.ok.inj htext
    obtain ⟨hne, hle⟩ := length_integer_le hfits
    exact ⟨hne, fun _ => hle⟩
  | decimal x =>
    obtain rfl := Except.ok.inj htext
    obtain ⟨hne, hle⟩ := length_decimal_le x
    exact ⟨hne, fun _ => hle⟩
  | temporal v => exact ⟨ne_nil_of_toText htext, length_temporal_le htext⟩

/-- A display size is between 1 and 40. -/
theorem displaySize_bounds (v : ShownValue) :
    1 ≤ getDisplaySize v.columnType ∧ getDisplaySize v.columnType ≤ 40 := by
  cases v with
  | integer id n hfits =>
    obtain ⟨w, hw, -⟩ := hfits
    cases id with
    | tinyint | utinyint | smallint | usmallint | integer | uinteger | bigint | ubigint | hugeint
    | uhugeint => exact ⟨Nat.le_of_ble_eq_true rfl, Nat.le_of_ble_eq_true rfl⟩
    | _ => cases hw
  | decimal x =>
    exact ⟨Nat.le_add_left 1 (x.width + 1), Nat.add_le_add_right x.width_le 2⟩
  | temporal v =>
    cases v with
    | date | time => exact ⟨Nat.le_of_ble_eq_true rfl, Nat.le_of_ble_eq_true rfl⟩
    | timestamp u value h64 =>
      cases u <;> exact ⟨Nat.le_of_ble_eq_true rfl, Nat.le_of_ble_eq_true rfl⟩

/-- No text is longer than 63 characters. -/
theorem length_lt_of_shown {v : ShownValue} {text : List Char} (htext : v.toText = .ok text) :
    text.length < 64 := by
  have hforty := (displaySize_bounds v).2
  cases v with
  | integer | decimal =>
    have hle := (text_fits_displaySize htext).2 trivial
    omega
  | temporal v => exact length_lt_of_toText htext

/-- Of the columns of whole days or seconds. -/
theorem fourDigitYear_of_fits {v : ShownValue} {text : List Char} (htext : v.toText = .ok text)
    (hid : v.columnType.id ∈ [LogicalTypeId.date, .timestampSec])
    (hle : text.length ≤ getDisplaySize v.columnType) : v.FourDigitYear := by
  cases v with
  | integer | decimal => exact trivial
  | temporal v => exact fourDigitYear_of_length_le htext hid hle

/-! ## A buffer of the display size -/

/-- The bytes of a text of the engine, which has characters of one byte only. -/
def textBytes (text : List Char) : List UInt8 := text.map fun c => UInt8.ofNat c.toNat

/-- A value is read with a buffer of the display size of its column and of the terminator : all of
its text if that is no longer. -/
theorem sqlGetData_displaySize {E : Engine ρ V} {h : OdbcHandleStmt ρ V} {columnNumber : ℕ} {x : V}
    {v : ShownValue} {text : List Char} (hvalue : OdbcHandleStmt.HasValue E h (columnNumber - 1) x)
    (hfresh : h.FreshOffset (columnNumber - 1)) (htext : v.toText = .ok text)
    (hbytes : LongType.char.bytes E x = .ok (textBytes text)) {target : Addr} (htarget : target ≠ 0)
    (strLenOrInd : Addr) :
    ∃ r, OdbcHandleStmt.sqlGetData E columnNumber .char target (getDisplaySize v.columnType + 1)
        strLenOrInd h = .ok r ∧
      (r.ret = .success ↔ text.length ≤ getDisplaySize v.columnType) ∧
      (r.ret = .success → Blob.piece r = textBytes text) := by
  obtain ⟨hpos, hforty⟩ := displaySize_bounds v
  generalize getDisplaySize v.columnType = size at hpos hforty ⊢
  have hlength : (textBytes text).length = text.length := List.length_map ..
  have hlt := length_lt_of_shown htext
  have hne := List.length_pos_iff.2 (text_fits_displaySize htext).1
  have hnonempty : textBytes text ≠ [] := List.ne_nil_of_length_pos (by omega)
  let q : GetDataRequest := ⟨target, (size : ℤ) + 1, strLenOrInd⟩
  have haccepts : LongType.char.Accepts q := by
    refine ⟨htarget, ?_, ?_⟩
    · change (1 : ℤ) ≤ (size : ℤ) + 1
      omega
    · change (size : ℤ) + 1 < 2 ^ 63
      omega
  have hroom : LongType.char.room q = size := by
    change ((size : ℤ) + 1 - 1).toNat = size
    omega
  obtain ⟨r, hcall, hanswers, -⟩ := OdbcHandleStmt.sqlGetData_piece hbytes hnonempty (by omega)
    ⟨hvalue, hfresh⟩ (Nat.zero_le _) haccepts
  have hpiece := Blob.piece_of_answers hanswers
  rw [hroom, List.drop_zero] at hpiece
  rw [OdbcHandleStmt.Answers, if_neg (by omega), hroom] at hanswers
  refine ⟨r, hcall, ?_, ?_⟩
  · rw [hanswers.1]
    by_cases hle : text.length ≤ size
    · rw [if_neg (by omega)]
      exact iff_of_true rfl hle
    · rw [if_pos (by omega)]
      exact iff_of_false SqlReturn.noConfusion hle
  · intro hret
    rw [hpiece]
    refine List.take_of_length_le ?_
    by_contra hlong
    rw [hanswers.1, if_pos (by omega)] at hret
    cases hret

/-- An application asks for the display size of a column, and makes its buffer longer by the
terminator. It reads the text of a value in one call, if the value has no longer year, and
where there is no fraction only then. -/
theorem displaySize_holds_text (C : CharType α) (E : Engine ρ V) (h : OdbcHandleStmt ρ V)
    (catalogName : List UInt8) (ird : OdbcHandleDesc) (columns : List Column) (columnNumber : ℕ)
    (column : Column) (a : AttributeArgs) (v : ShownValue) (text : List Char) (x : V)
    (hprepared : h.convertHSTMTPrepared.1 = .success) (hnumber : 1 ≤ columnNumber)
    (hcolumn : columns[columnNumber - 1]? = some column) (htype : column.type = v.columnType)
    (hnumeric : a.numericAttributePtr = true)
    (hvalue : OdbcHandleStmt.HasValue E h (columnNumber - 1) x)
    (hfresh : h.FreshOffset (columnNumber - 1)) (htext : v.toText = .ok text)
    (hbytes : E.charBytes (E.atUtcOffset x) = .ok (textBytes text)) :
    ∃ (c : ColAttribute ρ V α) (size : ℕ),
      colAttributeInternal C h false columns (fillIRD catalogName columns ird) columnNumber
        .displaySize a = some c ∧
      c.answer.ret = .success ∧ c.answer.numeric = some (size : ℤ) ∧
      ∀ target strLenOrInd : Addr, target ≠ 0 → ∃ r,
        OdbcHandleStmt.sqlGetData E columnNumber .char target (size + 1) strLenOrInd c.h = .ok r ∧
          (v.FourDigitYear → r.ret = .success ∧ Blob.piece r = textBytes text) ∧
          (column.type.id ∈ [.date, .timestampSec] → r.ret = .success → v.FourDigitYear) := by
  obtain ⟨hpos, -⟩ := displaySize_bounds v
  rw [← htype] at hpos
  obtain ⟨stmt, -, -, hconv⟩ | ⟨_, herror⟩ := h.convertHSTMTPrepared_cases
  · have hsize : ((fillRecord catalogName column).displaySize : ℤ) ≠ 0 := by
      rw [displaySize_fillRecord]
      omega
    have hanswer : attributeOf C columns.length (fillRecord catalogName column) .displaySize a =
        ⟨.success, [], none, a.stringLengthPtr, some (getDisplaySize column.type : ℤ)⟩ := by
      rw [attributeOf, if_neg hsize, setNumericAttributePtr, if_pos hnumeric,
        displaySize_fillRecord]
    refine ⟨_, getDisplaySize column.type,
      colAttributeInternal_of_column hprepared hnumber hcolumn .displaySize a, ?_, ?_, ?_⟩
    · rw [hanswer]
    · rw [hanswer]
    · intro target strLenOrInd htarget
      dsimp only
      rw [hconv, htype]
      have hafter : OdbcHandleStmt.HasValue E h.convertHSTMT (columnNumber - 1) x :=
        hvalue.of_lastFetched rfl rfl
      obtain ⟨r, hcall, hsuccess, hpiece⟩ :=
        sqlGetData_displaySize hafter hfresh htext hbytes htarget strLenOrInd
      refine ⟨r, hcall, fun hyear => ?_, fun hid hret => ?_⟩
      · have hret := hsuccess.2 ((text_fits_displaySize htext).2 hyear)
        exact ⟨hret, hpiece hret⟩
      · exact fourDigitYear_of_fits htext hid (hsuccess.1 hret)
  · rw [herror] at hprepared
    cases hprepared

/-- The lowest number of a byte has four characters. -/
def byteColumn : Column := ⟨[0x61], ⟨.tinyint, 0, 0⟩⟩

/-- The lowest byte is shown in its four characters. -/
theorem displaySize_holds_text_lowest :
    ∃ (c : ColAttribute ℕ ℕ UInt8) (size : ℕ),
      colAttributeInternal Diag.char (OdbcHandleStmt.onOnlyRow 0) false [byteColumn]
        (fillIRD [] [byteColumn] ⟨{}, [], 0, some 1, []⟩) 1 .displaySize ⟨false, 0, none, true⟩ =
          some c ∧
      c.answer.numeric = some (size : ℤ) ∧ ∃ r,
        OdbcHandleStmt.sqlGetData (Blob.bytesEngine (textBytes "-128".toList)) 1 .char 8 (size + 1)
          0 c.h = .ok r ∧ Blob.piece r = textBytes "-128".toList := by
  obtain ⟨c, size, hc, -, hsize, hread⟩ := displaySize_holds_text Diag.char
    (Blob.bytesEngine (textBytes "-128".toList)) (OdbcHandleStmt.onOnlyRow 0) []
    ⟨{}, [], 0, some 1, []⟩ [byteColumn] 1 byteColumn ⟨false, 0, none, true⟩
    (.integer .tinyint (-128) ⟨_, rfl, by decide⟩) "-128".toList 0 rfl (by decide) rfl rfl rfl
    ⟨⟨_, rfl, rfl⟩, rfl, rfl⟩ rfl (congrArg Except.ok (by decide)) rfl
  obtain ⟨r, hr, hwhole, -⟩ := hread 8 0 (by decide)
  exact ⟨c, size, hc, hsize, r, hr, (hwhole trivial).2⟩

end DescribeCol

end HaybarnOdbc
