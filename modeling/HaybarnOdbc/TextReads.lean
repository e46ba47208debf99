import HaybarnOdbc.TemporalText

/-!
# Texts of dates and times, read again

Each reader takes off a text what the writer put there and leaves the rest, so the lemmas about
them have a rest and are put together in the order of the text. A date is found again with the
calendar, a fraction as the number of its digits.
-/

namespace HaybarnOdbc.TemporalText

open MachineInt Calendar

/-! ## Digits -/

theorem length_leadingZeros {length n : ℕ} (hpos : 1 ≤ length) (h : n < 10 ^ length) :
    (leadingZeros length n).length = length := by
  have := length_digitsText_le hpos h
  rw [leadingZeros, List.length_append, List.length_replicate]
  omega

theorem isDigit_leadingZeros {length n : ℕ} : ∀ c ∈ leadingZeros length n, c.isDigit = true := by
  intro c hc
  obtain hc | hc := List.mem_append.1 hc
  · rw [List.eq_of_mem_replicate hc]
    rfl
  · exact isDigit_of_mem_digitsText hc

theorem digitsValue_leadingZeros (length n : ℕ) : digitsValue (leadingZeros length n) = n := by
  rw [leadingZeros, digitsValue_append, digitsValue_replicate, digitsValue_digitsText, zero_mul,
    zero_add]

theorem formatTwoDigits_eq {n : ℕ} (h : n < 100) : formatTwoDigits n = leadingZeros 2 n := by
  have hall : ∀ n : Fin 100, formatTwoDigits (n : ℕ) = leadingZeros 2 n := by decide +kernel
  exact hall ⟨n, h⟩

theorem digitsValue_cons (c : Char) (digits : List Char) :
    digitsValue (c :: digits) = digitOf c * 10 ^ digits.length + digitsValue digits := by
  rw [← List.singleton_append, digitsValue_append]
  simp [digitsValue, digitOf]

/-- Two digits are all that is taken. -/
theorem parseDoubleDigit_two {n : ℕ} (h : n < 100) (buf : List Char) :
    parseDoubleDigit (formatTwoDigits n ++ buf) = some (n, buf) := by
  obtain ⟨c, d, hcd⟩ := List.length_eq_two.1 (length_leadingZeros (n := n) (by decide) h)
  have hdigits : ∀ x ∈ [c, d], x.isDigit = true := hcd ▸ isDigit_leadingZeros
  have hvalue : digitsValue [c, d] = n := hcd ▸ digitsValue_leadingZeros 2 n
  rw [formatTwoDigits_eq h, hcd]
  simp only [List.cons_append, List.nil_append, parseDoubleDigit]
  rw [if_pos (hdigits c (by simp)), if_pos (hdigits d (by simp)), ← hvalue]
  simp [digitsValue, digitOf]
  omega

/-- A rest that does not begin with a digit. -/
def Ends (buf : List Char) : Prop := ∀ c ∈ buf.head?, c.isDigit = false

theorem parseYear_end {buf : List Char} (hbuf : Ends buf) (year : ℕ) :
    parseYear year buf = .ok (year, buf) := by
  cases buf with
  | nil => rfl
  | cons c buf => rw [parseYear, hbuf c rfl, if_neg Bool.false_ne_true]

theorem parseYear_digits {digits buf : List Char} (hdigits : ∀ c ∈ digits, c.isDigit = true)
    (hbuf : Ends buf) {year : ℕ} (hlt : year * 10 ^ digits.length + digitsValue digits < 10 ^ 9) :
    parseYear year (digits ++ buf) =
      .ok (year * 10 ^ digits.length + digitsValue digits, buf) := by
  induction digits generalizing year with
  | nil => simpa [digitsValue] using parseYear_end hbuf year
  | cons c digits ih =>
    have hsum : year * 10 ^ (c :: digits).length + digitsValue (c :: digits) =
        (digitOf c + year * 10) * 10 ^ digits.length + digitsValue digits := by
      rw [digitsValue_cons, List.length_cons, pow_succ]
      ring
    rw [hsum] at hlt ⊢
    have hyear : year < 100000000 := by
      have hle : digitOf c + year * 10 ≤ (digitOf c + year * 10) * 10 ^ digits.length :=
        Nat.le_mul_of_pos_right _ (Nat.pow_pos (by decide))
      omega
    rw [List.cons_append, parseYear, if_pos (hdigits c List.mem_cons_self), if_neg (by omega)]
    exact ih (fun d hd => hdigits d (List.mem_cons_of_mem _ hd)) hlt

theorem readHour_end {buf : List Char} (hbuf : Ends buf) (left hour : ℕ) :
    readHour left hour buf = some (hour, buf) := by
  cases buf with
  | nil => cases left <;> rfl
  | cons c buf =>
    rw [readHour.eq_def]
    dsimp only
    rw [hbuf c rfl, if_neg Bool.false_ne_true]

theorem readHour_digits {digits buf : List Char} (hdigits : ∀ c ∈ digits, c.isDigit = true)
    (hbuf : Ends buf) {left hour : ℕ} (hle : digits.length ≤ left) :
    readHour left hour (digits ++ buf) =
      some (hour * 10 ^ digits.length + digitsValue digits, buf) := by
  induction digits generalizing left hour with
  | nil => simpa [digitsValue] using readHour_end hbuf left hour
  | cons c digits ih =>
    rw [List.length_cons] at hle
    obtain ⟨left, rfl⟩ : ∃ k, left = k + 1 := ⟨left - 1, by omega⟩
    rw [List.cons_append, readHour, if_pos (hdigits c List.mem_cons_self),
      ih (fun d hd => hdigits d (List.mem_cons_of_mem _ hd)) (by omega), digitsValue_cons,
      List.length_cons, pow_succ]
    congr 2
    ring

theorem readFraction_end {buf : List Char} (hbuf : Ends buf) (mult micros : ℕ) :
    readFraction mult micros buf = (micros, buf) := by
  cases buf with
  | nil => rw [readFraction]
  | cons c buf => rw [readFraction, hbuf c rfl, if_neg Bool.false_ne_true]

/-- Digits of a fraction count for their places, from the multiplier of the first one on. -/
theorem readFraction_digits (k micros : ℕ) {digits buf : List Char}
    (hdigits : ∀ c ∈ digits, c.isDigit = true) (hbuf : Ends buf) (hle : digits.length ≤ k + 1) :
    readFraction (10 ^ k) micros (digits ++ buf) =
      (micros + digitsValue digits * 10 ^ (k + 1 - digits.length), buf) := by
  induction digits generalizing k micros with
  | nil => simpa [digitsValue] using readFraction_end hbuf (10 ^ k) micros
  | cons c digits ih =>
    rw [List.cons_append, readFraction, if_pos (hdigits c List.mem_cons_self),
      if_pos (Nat.pow_pos (by decide)), digitsValue_cons]
    rw [List.length_cons] at hle ⊢
    rcases k with _ | k
    · -- the digit of the ones is the last one
      obtain rfl : digits = [] := List.length_eq_zero_iff.1 (by omega)
      rw [List.nil_append, readFraction_end hbuf]
      simp [digitsValue]
    · rw [pow_succ, Nat.mul_div_cancel _ (by decide),
        ih _ _ (fun d hd => hdigits d (List.mem_cons_of_mem _ hd)) (by omega)]
      have hexp : k + 1 + 1 - (digits.length + 1) = k + 1 - digits.length := by omega
      have hpow : 10 ^ k * 10 = 10 ^ digits.length * 10 ^ (k + 1 - digits.length) := by
        rw [← pow_succ, ← pow_add]
        congr 1
        omega
      rw [hexp, hpow]
      congr 1
      ring

/-! ## Dates -/

/-- The bounds of `IsValid` are the first and the last day that is finite. -/
theorem isValid_of_bounds (d : Date) (hlow : -2147483646 ≤ d.number - EngineDate.epochNumber)
    (hhigh : d.number - EngineDate.epochNumber ≤ 2147483646) :
    EngineDate.isValid d.year d.month d.day = true := by
  rw [(by decide : EngineDate.epochNumber = 719162)] at hlow hhigh
  have := d.month_pos
  have := d.month_le
  have := d.day_pos
  have hnumber : d.number =
      daysBeforeYear d.year + (daysBeforeMonth d.year d.month + (d.day - 1)) := by
    rw [Date.number]
    omega
  have hbefore : ¬d.year < -5877641 := by
    rw [← d.lt_daysBeforeYear_iff, (by decide : daysBeforeYear (-5877641) = -2146764659)]
    omega
  have hbehind : d.year < 5881581 := by
    rw [← d.lt_daysBeforeYear_iff, (by decide : daysBeforeYear 5881581 = 2148202983)]
    omega
  have hfirst : d.year = -5877641 → ¬(d.month < 6 ∨ (d.month = 6 ∧ d.day < 25)) := by
    intro hyear
    have hmonth := d.lt_daysBeforeMonth_iff 6
    rw [hyear, (by decide : daysBeforeMonth (-5877641) 6 = 151)] at hmonth
    rw [hyear, (by decide : daysBeforeYear (-5877641) = -2146764659)] at hnumber
    rintro (hlt | ⟨heq, hlt⟩)
    · have := hmonth.2 hlt
      omega
    · rw [heq, (by decide : daysBeforeMonth (-5877641) 6 = 151)] at hnumber
      omega
  have hlast : d.year = 5881580 → ¬(7 < d.month ∨ (d.month = 7 ∧ 10 < d.day)) := by
    intro hyear
    have hmonth := d.lt_daysBeforeMonth_iff 8
    rw [hyear, (by decide : daysBeforeMonth 5881580 8 = 213)] at hmonth
    rw [hyear, (by decide : daysBeforeYear 5881580 = 2148202617)] at hnumber
    rintro (hlt | ⟨heq, hlt⟩)
    · have := mt hmonth.1 (by omega)
      omega
    · rw [heq, (by decide : daysBeforeMonth 5881580 7 = 182)] at hnumber
      omega
  unfold EngineDate.isValid
  rw [if_neg (by omega), if_neg (by omega), if_neg (by omega), if_neg (by omega),
    Int.toNat_natCast, EngineDate.daysInMonth_eq d.month_le d.month_pos]
  exact decide_eq_true d.day_le

/-- A day is found again by its date. -/
theorem tryFromDate_of_number (d : Date) {days : ℤ} (hd : d.number = days + EngineDate.epochNumber)
    (hlow : -2147483646 ≤ days) (hhigh : days ≤ 2147483646) :
    EngineDate.tryFromDate d.year d.month d.day = some days := by
  have hbefore : (if IsLeap d.year then EngineDate.cumulativeLeapDays
      else EngineDate.cumulativeDays).getD ((d.month : ℤ).toNat - 1) 0 =
        daysBeforeMonth d.year d.month := by
    have := d.month_le
    rw [Int.toNat_natCast]
    by_cases hleap : IsLeap d.year
    · rw [if_pos hleap, EngineDate.cumulativeLeapDays_eq hleap (by omega),
        Nat.sub_add_cancel d.month_pos]
    · rw [if_neg hleap, EngineDate.cumulativeDays_eq hleap (by omega),
        Nat.sub_add_cancel d.month_pos]
  unfold EngineDate.tryFromDate
  rw [if_pos (isValid_of_bounds d (by omega) (by omega)), hbefore, EngineDate.daysToYear_eq]
  rw [Date.number] at hd
  exact congrArg some (by omega)

/-- What may stand behind a date : nothing, or a time. -/
def Behind (buf : List Char) : Prop :=
  buf = [] ∨ ∃ c rest, buf = ' ' :: c :: rest ∧ c.isDigit = true

theorem readBc_behind {buf : List Char} (h : Behind buf) (yearneg : Bool) (year : ℤ) :
    readBc yearneg year buf = .ok (year, buf) := by
  rcases h with rfl | ⟨c, rest, rfl, hc⟩
  · rfl
  · have hparen : c ≠ '(' := by
      rintro rfl
      exact absurd hc (by decide)
    rcases rest with _ | ⟨c1, _ | ⟨c2, _ | ⟨c3, rest⟩⟩⟩
    · rfl
    · rfl
    · rfl
    · exact if_neg fun hand => hparen hand.2.1

/-- The suffix gives the year before year 1 back. -/
theorem readBc_bc {year : ℤ} (hyear : year ≤ 0) (buf : List Char) :
    readBc false (-year + 1) (" (BC)".toList ++ buf) = .ok (year, buf) := by
  have hbc : " (BC)".toList ++ buf = ' ' :: '(' :: 'B' :: 'C' :: ')' :: buf := rfl
  rw [hbc, readBc, if_pos (by decide), if_neg (by simp; omega)]
  simp

/-- The year that is written. -/
def shownYear (year : ℤ) : ℤ := if year ≤ 0 then -year + 1 else year

/-- The suffix that is written behind a date. -/
def suffix (year : ℤ) : List Char := if year ≤ 0 then " (BC)".toList else []

theorem formatDate_eq (year : ℤ) (month : ℕ) (day : ℤ) : formatDate year month day =
    leadingZeros (yearLength (shownYear year)) (shownYear year).toNat ++
      ('-' :: formatTwoDigits month ++ ('-' :: formatTwoDigits day ++ suffix year)) := by
  rfl

theorem readBc_suffix (year : ℤ) {buf : List Char} (h : Behind buf) :
    readBc false (shownYear year) (suffix year ++ buf) = .ok (year, buf) := by
  unfold shownYear suffix
  by_cases hbc : year ≤ 0
  · rw [if_pos hbc, if_pos hbc, readBc_bc hbc]
  · rw [if_neg hbc, if_neg hbc, List.nil_append, readBc_behind h]

/-- The date that is written is read. -/
theorem readDate_formatDate (d : Date) {days : ℤ}
    (hd : d.number = days + EngineDate.epochNumber) (hlow : -2147483646 ≤ days)
    (hhigh : days ≤ 2147483646) {buf : List Char} (hbuf : Behind buf) :
    readDate false (formatDate d.year d.month d.day ++ buf) = .ok (days, buf) := by
  have hmonth : d.month < 100 := d.month_le.trans_lt (by decide)
  obtain ⟨day, hday⟩ : ∃ day : ℕ, d.day = day :=
    ⟨d.day.toNat, by have := d.day_pos; omega⟩
  have hday' : day < 100 := by
    have := d.day_le.trans (daysInMonth_le d.year d.month)
    omega
  have hyear : ((shownYear d.year).toNat : ℤ) = shownYear d.year ∧
      (shownYear d.year).toNat < 10 ^ 9 := by
    have hlow' := mt (d.lt_daysBeforeYear_iff (-5877642)).2
    have hhigh' := (d.lt_daysBeforeYear_iff 5881581).1
    rw [(by decide : daysBeforeYear (-5877642) = -2146765024)] at hlow'
    rw [(by decide : daysBeforeYear 5881581 = 2148202983)] at hhigh'
    rw [(by decide : EngineDate.epochNumber = 719162)] at hd
    have := hlow' (by omega)
    have := hhigh' (by omega)
    unfold shownYear
    split <;> omega
  rw [formatDate_eq, hday]
  simp only [List.append_assoc, List.cons_append]
  rw [readDate, parseYear_digits isDigit_leadingZeros (fun c hc => by cases hc; rfl)
    (by rw [Nat.zero_mul, Nat.zero_add, digitsValue_leadingZeros]; exact hyear.2),
    Nat.zero_mul, Nat.zero_add, digitsValue_leadingZeros]
  simp only [bind, Except.bind, readField]
  rw [if_pos (by decide), parseDoubleDigit_two hmonth]
  dsimp only
  rw [if_neg (fun hne => hne rfl), parseDoubleDigit_two hday']
  dsimp only
  rw [if_neg Bool.false_ne_true, hyear.1, readBc_suffix d.year hbuf]
  dsimp only
  have hdate := tryFromDate_of_number d hd hlow hhigh
  rw [hday] at hdate
  have hend : buf.head?.any Char.isDigit = false := by
    rcases hbuf with rfl | ⟨c, rest, rfl, -⟩
    · rfl
    · rfl
  rw [readDay, hend, if_neg Bool.false_ne_true, hdate]

theorem leadingZeros_ne_nil (length n : ℕ) : leadingZeros length n ≠ [] :=
  List.append_ne_nil_of_right_ne_nil _ (digitsText_ne_nil n)

theorem dropWhile_isSpace {c : Char} (hc : c.isDigit = true) (buf : List Char) :
    (c :: buf).dropWhile isSpace = c :: buf := by
  have hspace : isSpace c = false := by
    simp only [Char.isDigit, Bool.and_eq_true, decide_eq_true_eq, ge_iff_le,
      UInt32.le_iff_toNat_le] at hc
    have h48 : 48 ≤ c.toNat := hc.1
    simp only [isSpace, List.mem_cons, List.not_mem_nil, or_false, decide_eq_false_iff_not]
    omega
  rw [List.dropWhile_cons, hspace, if_neg Bool.false_ne_true]

theorem begins_with_digit {digits : List Char} (hne : digits ≠ [])
    (hdigits : ∀ c ∈ digits, c.isDigit = true) (buf : List Char) :
    (digits ++ buf).dropWhile isSpace = digits ++ buf ∧
      (digits ++ buf).head?.any Char.isDigit = true := by
  obtain ⟨c, digits, rfl⟩ := List.exists_cons_of_ne_nil hne
  have hc := hdigits c List.mem_cons_self
  exact ⟨dropWhile_isSpace hc _, hc⟩

/-- What begins with a digit is a date. -/
theorem tryConvertDate_digits {digits buf : List Char} (hne : digits ≠ [])
    (hdigits : ∀ c ∈ digits, c.isDigit = true) :
    tryConvertDate (digits ++ buf) = readDate false (digits ++ buf) := by
  obtain ⟨c, digits, rfl⟩ := List.exists_cons_of_ne_nil hne
  have hc := hdigits c List.mem_cons_self
  have hdash : c ≠ '-' := DecimalValue.ne_of_isDigit hc rfl
  rw [tryConvertDate, List.cons_append, dropWhile_isSpace hc]
  simp [hdash, hc]

theorem tryConvertDate_formatDate (d : Date) {days : ℤ}
    (hd : d.number = days + EngineDate.epochNumber) (hlow : -2147483646 ≤ days)
    (hhigh : days ≤ 2147483646) {buf : List Char} (hbuf : Behind buf) :
    tryConvertDate (formatDate d.year d.month d.day ++ buf) = .ok (days, buf) := by
  rw [← readDate_formatDate d hd hlow hhigh hbuf, formatDate_eq, List.append_assoc]
  exact tryConvertDate_digits (leadingZeros_ne_nil _ _) isDigit_leadingZeros

/-! ## Times -/

/-- Zeros at the end that are left out can be put back. -/
theorem take_trailingZeros {buffer : List Char} {k : ℕ} (hlen : buffer.length = k + 1) :
    trailingZeros buffer ≤ k ∧ buffer = buffer.take (k + 1 - trailingZeros buffer) ++
      List.replicate (trailingZeros buffer) '0' := by
  have hsplit := List.takeWhile_append_dropWhile (p := fun c => c = '0')
    (l := (buffer.drop 1).reverse)
  have hzeros : (buffer.drop 1).reverse.takeWhile (fun c => c = '0') =
      List.replicate (trailingZeros buffer) '0' :=
    List.eq_replicate_iff.2 ⟨rfl, fun c hc => by simpa using List.mem_takeWhile_imp hc⟩
  obtain ⟨front, hfront⟩ : ∃ front, buffer.drop 1 =
      front ++ List.replicate (trailingZeros buffer) '0' := by
    refine ⟨((buffer.drop 1).reverse.dropWhile fun c => c = '0').reverse, ?_⟩
    rw [← List.reverse_inj, List.reverse_append, List.reverse_reverse, List.reverse_replicate,
      ← hzeros, hsplit]
  have hcount := congrArg List.length hfront
  rw [List.length_drop, List.length_append, List.length_replicate, hlen] at hcount
  have hall : buffer = (buffer.take 1 ++ front) ++ List.replicate (trailingZeros buffer) '0' := by
    rw [List.append_assoc, ← hfront, List.take_append_drop]
  refine ⟨by omega, ?_⟩
  have hlength : (buffer.take 1 ++ front).length = k + 1 - trailingZeros buffer := by
    rw [List.length_append, List.length_take]
    omega
  have htake : buffer.take (k + 1 - trailingZeros buffer) = buffer.take 1 ++ front :=
    (congrArg (List.take _) hall).trans (List.take_left' hlength)
  rw [htake]
  exact hall

/-- The digits without the zeros at the end, for their places. -/
theorem digitsValue_take {n k : ℕ} (h : n < 10 ^ (k + 1)) :
    digitsValue ((leadingZeros (k + 1) n).take (k + 1 - trailingZeros (leadingZeros (k + 1) n))) *
      10 ^ trailingZeros (leadingZeros (k + 1) n) = n := by
  obtain ⟨-, hsplit⟩ := take_trailingZeros (length_leadingZeros (Nat.succ_pos k) h)
  have hvalue := digitsValue_leadingZeros (k + 1) n
  rw [hsplit, digitsValue_append, digitsValue_replicate, Nat.add_zero, List.length_replicate]
    at hvalue
  exact hvalue

theorem isDigit_take (length n k : ℕ) : ∀ c ∈ (leadingZeros length n).take k, c.isDigit = true :=
  fun c hc => isDigit_leadingZeros c (List.mem_of_mem_take hc)

/-- A number of nanoseconds, in picoseconds, ends with three zeros. -/
theorem three_le_trailingZeros : ∀ n : Fin 1000, 3 ≤ trailingZeros (leadingZeros 6 (n * 1000)) := by
  decide +kernel

/-- The fraction that is written. -/
def fraction (micros picos : ℤ) : List Char :=
  (if 8 < timeLength micros picos then
      '.' :: (leadingZeros 6 micros.toNat).take (timeLength micros picos - 9) else []) ++
    if picos ≠ 0 then
      (leadingZeros 6 picos.toNat).take (6 - trailingZeros (leadingZeros 6 picos.toNat)) else []

theorem ends_nil : Ends [] := nofun

/-- A fraction of microseconds is read, also by a caller who asks for nanoseconds. -/
theorem readMicros_micros (nanos : Bool) {micros : ℕ} (h : micros < 10 ^ 6) :
    readMicros nanos (fraction micros 0) = (micros, 0, []) := by
  by_cases hzero : micros = 0
  · subst hzero
    rfl
  · obtain ⟨hle, -⟩ := take_trailingZeros (length_leadingZeros (by decide : 1 ≤ 6) h)
    have hvalue := digitsValue_take (k := 5) h
    generalize ht : trailingZeros (leadingZeros 6 micros) = t at hle hvalue
    have hlength : timeLength micros 0 = 15 - t := by
      rw [timeLength, if_neg (fun hne => hne rfl), if_neg (by omega), Int.toNat_natCast, ht]
    have hfraction : fraction micros 0 = '.' :: ((leadingZeros 6 micros).take (6 - t) ++ []) := by
      rw [fraction, hlength, if_pos (by omega), if_neg (fun hne => hne rfl), Int.toNat_natCast,
        List.append_nil, List.append_nil]
      congr 2
      omega
    have hlen : ((leadingZeros 6 micros).take (6 - t)).length = 6 - t := by
      rw [List.length_take, length_leadingZeros (by decide) h]
      omega
    rw [hfraction, readMicros]
    cases nanos with
    | false =>
      have hread := readFraction_digits 5 0
        (isDigit_take 6 micros (6 - t)) ends_nil (by omega)
      rw [hlen, (by omega : 5 + 1 - (6 - t) = t), hvalue, Nat.zero_add,
        (by norm_num : 10 ^ 5 = 100000)] at hread
      rw [if_neg Bool.false_ne_true, hread]
      rfl
    | true =>
      have hread := readFraction_digits 8 0
        (isDigit_take 6 micros (6 - t)) ends_nil (by omega)
      rw [hlen, (by omega : 8 + 1 - (6 - t) = t + 3), pow_add, ← mul_assoc, hvalue,
        Nat.zero_add, (by norm_num : 10 ^ 8 = 100000000), (by norm_num : 10 ^ 3 = 1000)] at hread
      rw [if_pos rfl, hread]
      dsimp only
      rw [if_pos rfl, Nat.mul_div_cancel _ (by decide), Nat.mul_mod_left]

/-- A fraction with nanoseconds is read by a caller who asks for them. -/
theorem readMicros_nanos {micros nanos : ℕ} (h : micros < 10 ^ 6) (hpos : nanos ≠ 0)
    (hlt : nanos < 1000) :
    readMicros true (fraction micros ((nanos * 1000 : ℕ) : ℤ)) = (micros, nanos, []) := by
  have hpicos : nanos * 1000 < 10 ^ 6 := by omega
  obtain ⟨hle, -⟩ := take_trailingZeros (length_leadingZeros (by decide : 1 ≤ 6) hpicos)
  have hthree := three_le_trailingZeros ⟨nanos, hlt⟩
  have hvalue := digitsValue_take (k := 5) hpicos
  dsimp only at hthree
  generalize ht : trailingZeros (leadingZeros 6 (nanos * 1000)) = t at hle hthree hvalue
  have hlength : timeLength micros ((nanos * 1000 : ℕ) : ℤ) = 15 := if_pos (by omega)
  have hlen : (leadingZeros 6 micros).length = 6 := length_leadingZeros (by decide) h
  have hfraction : fraction micros ((nanos * 1000 : ℕ) : ℤ) =
      '.' :: ((leadingZeros 6 micros ++ (leadingZeros 6 (nanos * 1000)).take (6 - t)) ++ []) := by
    rw [fraction, hlength, if_pos (by decide), if_pos (by omega), Int.toNat_natCast,
      Int.toNat_natCast, ht, List.take_of_length_le (by omega), List.append_nil]
    rfl
  have hdigits : ∀ c ∈ leadingZeros 6 micros ++ (leadingZeros 6 (nanos * 1000)).take (6 - t),
      c.isDigit = true := fun c hc =>
    (List.mem_append.1 hc).elim (isDigit_leadingZeros c) (isDigit_take _ _ _ c)
  have hlen' : ((leadingZeros 6 (nanos * 1000)).take (6 - t)).length = 6 - t := by
    rw [List.length_take, length_leadingZeros (by decide) hpicos]
    omega
  have hread := readFraction_digits 8 0 hdigits ends_nil
    (by rw [List.length_append, hlen, hlen']; omega)
  -- of the digits behind the microseconds, those that are left are counted for their places
  have hrest :
      digitsValue ((leadingZeros 6 (nanos * 1000)).take (6 - t)) * 10 ^ (t - 3) = nanos := by
    have hpow : 10 ^ t = 10 ^ (t - 3) * 1000 := by
      rw [(by norm_num : 1000 = 10 ^ 3), ← pow_add]
      congr 1
      omega
    rw [hpow, ← mul_assoc] at hvalue
    exact Nat.eq_of_mul_eq_mul_right (by decide) hvalue
  have hwhole : 10 ^ (6 - t) * 10 ^ (t - 3) = 1000 := by
    rw [← pow_add, (by omega : 6 - t + (t - 3) = 3)]
    rfl
  rw [List.length_append, hlen, hlen', (by omega : 8 + 1 - (6 + (6 - t)) = t - 3),
    digitsValue_append, digitsValue_leadingZeros, hlen', add_mul, mul_assoc, hwhole, hrest,
    Nat.zero_add, (by norm_num : 10 ^ 8 = 100000000)] at hread
  rw [hfraction, readMicros, if_pos rfl, hread]
  dsimp only
  rw [if_pos rfl]
  simp only [Prod.mk.injEq, and_true]
  omega

theorem readSixty_two {n : ℕ} (h : n < 60) (buf : List Char) :
    readSixty (formatTwoDigits n ++ buf) = some (n, buf) := by
  have hne : formatTwoDigits n ++ buf ≠ [] := by
    rw [formatTwoDigits_eq (by omega)]
    exact List.append_ne_nil_of_left_ne_nil (leadingZeros_ne_nil _ _) _
  rw [readSixty, if_neg hne, parseDoubleDigit_two (by omega)]
  exact Option.filter_some_pos (by simpa using h)

theorem ends_cons {c : Char} (hc : c.isDigit = false) (buf : List Char) : Ends (c :: buf) := by
  rintro x ⟨⟩
  exact hc

/-- The fields of a time, and the text that is made of them. -/
theorem exists_fields {time : ℤ} (h0 : 0 ≤ time) (hle : time ≤ microsPerDay) :
    ∃ hour minute second micros : ℕ, hour < 100 ∧ minute < 60 ∧ second < 60 ∧ micros < 10 ^ 6 ∧
      EngineTime.fromTime hour minute second micros = time ∧ ∀ picos, formatTime time picos =
        leadingZeros 2 hour ++ (':' :: (formatTwoDigits minute ++
          (':' :: (formatTwoDigits second ++ fraction micros picos)))) := by
  have hconvert := EngineTime.convert_spec h0 hle
  simp only [microsPerDay] at hle
  simp only [microsPerHour, microsPerMinute, microsPerSec] at hconvert
  obtain ⟨hour, hhour⟩ : ∃ n : ℕ, time / 3600000000 = n :=
    ⟨_, (Int.toNat_of_nonneg (by omega)).symm⟩
  obtain ⟨minute, hminute⟩ : ∃ n : ℕ, time % 3600000000 / 60000000 = n :=
    ⟨_, (Int.toNat_of_nonneg (by omega)).symm⟩
  obtain ⟨second, hsecond⟩ : ∃ n : ℕ, time % 60000000 / 1000000 = n :=
    ⟨_, (Int.toNat_of_nonneg (by omega)).symm⟩
  obtain ⟨micros, hmicros⟩ : ∃ n : ℕ, time % 1000000 = n :=
    ⟨_, (Int.toNat_of_nonneg (by omega)).symm⟩
  rw [hhour, hminute, hsecond, hmicros] at hconvert
  refine ⟨hour, minute, second, micros, by omega, by omega, by omega, by omega, ?_, fun picos => ?_⟩
  · simp only [EngineTime.fromTime, minsPerHour, secsPerMinute, microsPerSec]
    omega
  · rw [← formatTwoDigits_eq (by omega), formatTime, hconvert]
    rfl

/-- The time that is written is read. -/
theorem tryConvertInternal_formatTime (nanos : Bool) (rest : ℕ) {time : ℤ} (h0 : 0 ≤ time)
    (hle : time ≤ microsPerDay) (hrest : rest < 1000)
    (hnanos : rest ≠ 0 → nanos = true) :
    tryConvertInternal nanos (formatTime time ((rest * 1000 : ℕ) : ℤ)) = some (time, rest, []) := by
  obtain ⟨hour, minute, second, micros, hhour, hminute, hsecond, hmicros, htime, htext⟩ :=
    exists_fields h0 hle
  have hread : readMicros nanos (fraction micros ((rest * 1000 : ℕ) : ℤ)) = (micros, rest, []) := by
    by_cases hzero : rest = 0
    · subst hzero
      exact readMicros_micros nanos hmicros
    · rw [hnanos hzero]
      exact readMicros_nanos hmicros hzero hrest
  rw [htext]
  generalize fraction micros ((rest * 1000 : ℕ) : ℤ) = rest' at hread
  obtain ⟨hspaces, hstart⟩ := begins_with_digit (leadingZeros_ne_nil 2 hour) isDigit_leadingZeros
    (':' :: (formatTwoDigits minute ++ (':' :: (formatTwoDigits second ++ rest'))))
  have hreadHour : readHour 9 0 (leadingZeros 2 hour ++ (':' :: (formatTwoDigits minute ++
      (':' :: (formatTwoDigits second ++ rest'))))) =
        some (hour,
          ':' :: (formatTwoDigits minute ++ (':' :: (formatTwoDigits second ++ rest')))) := by
    rw [readHour_digits isDigit_leadingZeros (ends_cons rfl _)
      (by rw [length_leadingZeros (by decide) hhour]; decide), Nat.zero_mul, Nat.zero_add,
      digitsValue_leadingZeros]
  rw [tryConvertInternal, hspaces, if_neg (not_not.2 hstart), hreadHour]
  simp only [Option.bind_eq_bind, Option.bind_some, List.head?_cons, if_true, List.tail_cons]
  rw [readSixty_two hminute]
  simp only [Option.bind_some, List.head?_cons, List.tail_cons, reduceCtorEq, if_false, ne_eq,
    not_true]
  rw [readSixty_two hsecond, Option.bind_some, hread, htime]
  rfl

/-! ## Timestamps -/

theorem behind_time {time : ℤ} (h0 : 0 ≤ time) (hle : time ≤ microsPerDay) (picos : ℤ) :
    Behind (' ' :: formatTime time picos) := by
  obtain ⟨hour, minute, second, micros, -, -, -, -, -, htext⟩ := exists_fields h0 hle
  obtain ⟨c, digits, hdigits⟩ := List.exists_cons_of_ne_nil (leadingZeros_ne_nil 2 hour)
  have hc : ∀ x ∈ leadingZeros 2 hour, x.isDigit = true := isDigit_leadingZeros
  rw [hdigits] at hc
  rw [htext, hdigits]
  exact .inr ⟨c, _, rfl, hc c List.mem_cons_self⟩

/-- The timestamp that is written is read, if the engine can count it. -/
theorem tryConvertTimestamp_formatTimestamp (useOffset nanos : Bool) (rest : ℕ)
    {date time timestamp : ℤ} (hlow : -2147483646 ≤ date) (hhigh : date ≤ 2147483646)
    (h0 : 0 ≤ time)
    (hle : time ≤ microsPerDay) (hrest : rest < 1000)
    (hnanos : rest ≠ 0 → nanos = true)
    (htimestamp : EngineTimestamp.tryFromDatetime date time = some timestamp) :
    tryConvertTimestamp useOffset nanos
      (formatTimestamp date time ((rest * 1000 : ℕ) : ℤ)) = .ok (timestamp, rest) := by
  obtain ⟨d, hd, hconvert⟩ := EngineDate.convert_spec date
  have hdate := tryConvertDate_formatDate d hd hlow hhigh
    (behind_time h0 hle ((rest * 1000 : ℕ) : ℤ))
  have htime := tryConvertInternal_formatTime nanos rest h0 hle hrest hnanos
  rw [formatTimestamp, hconvert]
  dsimp only
  rw [tryConvertTimestamp, tryConvertTimestampTZ, hdate]
  simp only [bind, Except.bind, reduceCtorEq, if_false, List.head?_cons, true_or, if_true,
    List.tail_cons, htime]
  rw [if_neg (by omega), htimestamp]
  simp only [readZone, bind, Except.bind, if_true, List.dropWhile_nil, pure, Except.pure, true_or]

/-- The first midnight that is counted in microseconds. -/
theorem fits_midnight_iff {value : ℤ} (h64 : i64.Fits value) :
    i64.Fits (value / microsPerDay * microsPerDay) ↔ -9223372022400000000 ≤ value := by
  have h := fits_i64.1 h64
  rw [fits_i64]
  simp only [microsPerDay]
  omega

/-- What a timestamp of a number of microseconds is taken apart into. -/
theorem convertTimestamp_eq {value : ℤ} (h64 : i64.Fits value)
    (hfin : EngineTimestamp.IsFinite value) : convertTimestamp value =
      if -9223372022400000000 ≤ value then .ok (value / microsPerDay, value % microsPerDay)
      else .error "Date out of range in timestamp conversion" := by
  have hrest : value - value / microsPerDay * microsPerDay = value % microsPerDay := by
    simp only [microsPerDay]
    omega
  rw [convertTimestamp, EngineTimestamp.getDate_of_finite h64 hfin]
  dsimp only [EngineTimestamp.tryMultiply]
  by_cases hday : -9223372022400000000 ≤ value
  · rw [if_pos hday, if_pos ((fits_midnight_iff h64).2 hday)]
    dsimp only
    rw [hrest]
  · rw [if_neg hday, if_neg (mt (fits_midnight_iff h64).1 hday)]

/-- The date and the time of a number of microseconds. -/
theorem tryFromDatetime_of_micros {value : ℤ} (h64 : i64.Fits value)
    (hfin : EngineTimestamp.IsFinite value) (hday : -9223372022400000000 ≤ value) :
    EngineTimestamp.tryFromDatetime (value / microsPerDay) (value % microsPerDay) =
      some value := by
  have hsum : value / microsPerDay * microsPerDay + value % microsPerDay = value := by
    simp only [microsPerDay]
    omega
  rw [EngineTimestamp.tryFromDatetime, EngineTimestamp.tryMultiply,
    if_pos ((fits_midnight_iff h64).2 hday)]
  simp only [Option.bind_eq_bind, Option.bind_some]
  rw [hsum, if_pos ⟨h64, hfin⟩]

/-- The text of a finite timestamp is made of what it is taken apart into. -/
theorem timestampText_eq_map {value : ℤ} (hfin : EngineTimestamp.IsFinite value) :
    timestampText false value =
      (convertTimestamp value).map fun fields => formatTimestamp fields.1 fields.2 0 := by
  rw [timestampText, if_neg hfin.1, if_neg hfin.2]
  cases convertTimestamp value <;> rfl

/-- A text of microseconds is there from the first day on that has a midnight, and is read. -/
theorem timestampText_micros {value : ℤ} (h64 : i64.Fits value)
    (hfin : EngineTimestamp.IsFinite value) :
    (-9223372022400000000 ≤ value → ∃ text, timestampText false value = .ok text ∧
      castToTimestamp text = some value) ∧
    (¬-9223372022400000000 ≤ value →
      timestampText false value = .error "Date out of range in timestamp conversion") := by
  have hconvert := convertTimestamp_eq h64 hfin
  have htext := timestampText_eq_map hfin
  obtain ⟨h0, hlt⟩ := fits_i64.1 h64
  constructor
  · intro hday
    rw [if_pos hday] at hconvert
    rw [htext, hconvert]
    refine ⟨_, rfl, ?_⟩
    have hread := tryConvertTimestamp_formatTimestamp false false 0
      (by simp only [microsPerDay]; omega) (by simp only [microsPerDay]; omega)
      (Int.emod_nonneg _ (by decide)) (Int.emod_lt_of_pos _ (by decide)).le (by decide)
      (fun hne => absurd rfl hne) (tryFromDatetime_of_micros h64 hfin hday)
    exact congrArg (fun r : Except CastError (ℤ × ℕ) => r.toOption.map Prod.fst) hread
  · intro hday
    rw [htext, hconvert, if_neg hday]
    rfl

theorem temporalRound_eq (value : ℤ) : temporalRound value 1000 = value / 1000 := by
  by_cases hneg : value < 0
  · have hround : temporalRound value 1000 = (value + 1).tdiv 1000 - 1 := by
      rw [temporalRound, if_pos hneg]
    have hdiv := Int.neg_tdiv (-(value + 1)) 1000
    rw [neg_neg, Int.tdiv_eq_ediv_of_nonneg (by omega : 0 ≤ -(value + 1))] at hdiv
    omega
  · have hround : temporalRound value 1000 = value.tdiv 1000 := by
      rw [temporalRound, if_neg hneg, add_zero, sub_zero]
    rw [hround, Int.tdiv_eq_ediv_of_nonneg (by omega)]

/-- What a timestamp of a number of nanoseconds is taken apart into. -/
theorem convertTimestampNs_eq {value : ℤ} (h64 : i64.Fits value) : convertTimestampNs value =
    if -9223286400000000000 ≤ value then
      .ok (value / 1000 / microsPerDay, value / 1000 % microsPerDay, value % 1000)
    else .error "Date out of range in timestamp_ns conversion" := by
  have h := fits_i64.1 h64
  have hmicros : i64.Fits (value / 1000) := fits_i64.2 (by omega)
  have hfin : EngineTimestamp.IsFinite (value / 1000) := by
    unfold EngineTimestamp.IsFinite EngineTimestamp.infinity
    omega
  have hday : value / 1000 / microsPerDay = value / nanosPerDay := by
    simp only [microsPerDay, nanosPerDay]
    omega
  have hfits : i64.Fits (value / nanosPerDay * nanosPerDay) ↔ -9223286400000000000 ≤ value := by
    rw [fits_i64]
    simp only [nanosPerDay]
    omega
  have hrest : value - value / nanosPerDay * nanosPerDay = value % nanosPerDay := by
    simp only [nanosPerDay]
    omega
  rw [convertTimestampNs, temporalRound_eq, EngineTimestamp.getDate_of_finite hmicros hfin, hday]
  dsimp only [EngineTimestamp.tryMultiply]
  by_cases hlow : -9223286400000000000 ≤ value
  · have hnonneg : 0 ≤ value % nanosPerDay := Int.emod_nonneg _ (by decide)
    rw [if_pos hlow, if_pos (hfits.2 hlow)]
    dsimp only
    rw [hrest, Int.tdiv_eq_ediv_of_nonneg hnonneg, Int.tmod_eq_emod_of_nonneg hnonneg,
      IntType.wrap_of_fits (by decide) (fits_i32.2 (by omega))]
    simp only [Except.ok.injEq, Prod.mk.injEq, true_and]
    simp only [microsPerDay, nanosPerDay]
    omega
  · rw [if_neg hlow, if_neg (mt hfits.1 hlow)]

theorem timestampTextNs_eq_map {value : ℤ} (hfin : EngineTimestamp.IsFinite value) :
    timestampText true value = (convertTimestampNs value).map fun fields =>
      formatTimestamp fields.1 fields.2.1 (fields.2.2 * 1000) := by
  rw [timestampText, if_neg hfin.1, if_neg hfin.2]
  cases convertTimestampNs value <;> rfl

/-- A text of nanoseconds is there from the first day on that has a midnight, and is read. -/
theorem timestampText_nanos {value : ℤ} (h64 : i64.Fits value)
    (hfin : EngineTimestamp.IsFinite value) :
    (-9223286400000000000 ≤ value → ∃ text, timestampText true value = .ok text ∧
      castToUnit .ns text = some value) ∧
    (¬-9223286400000000000 ≤ value →
      timestampText true value = .error "Date out of range in timestamp_ns conversion") := by
  have hconvert := convertTimestampNs_eq h64
  have htext := timestampTextNs_eq_map hfin
  have h := fits_i64.1 h64
  constructor
  · intro hday
    have hmicros : i64.Fits (value / 1000) := fits_i64.2 (by omega)
    have hfinite : EngineTimestamp.IsFinite (value / 1000) := by
      unfold EngineTimestamp.IsFinite EngineTimestamp.infinity
      omega
    obtain ⟨rest, hrest⟩ : ∃ rest : ℕ, value % 1000 = rest :=
      ⟨_, (Int.toNat_of_nonneg (by omega)).symm⟩
    rw [if_pos hday, hrest] at hconvert
    rw [htext, hconvert]
    refine ⟨_, rfl, ?_⟩
    have hread := tryConvertTimestamp_formatTimestamp true true rest
      (by simp only [microsPerDay]; omega) (by simp only [microsPerDay]; omega)
      (Int.emod_nonneg _ (by decide)) (Int.emod_lt_of_pos _ (by decide)).le (by omega)
      (fun _ => rfl) (tryFromDatetime_of_micros hmicros hfinite (by omega))
    rw [Nat.cast_mul, Nat.cast_ofNat] at hread
    rw [castToUnit, hread]
    dsimp only
    rw [tryFromTimestampNanos, if_neg (not_not.2 hfinite), EngineTimestamp.tryMultiply,
      if_pos (fits_i64.2 (by omega))]
    simp only [Option.bind_eq_bind, Option.bind_some]
    have hsum : value / 1000 * 1000 + rest = value := by omega
    rw [hsum, if_pos ⟨h64, hfin⟩]
  · intro hday
    rw [htext, hconvert, if_neg hday]
    rfl

/-- Whole units are not changed when they are rounded to. -/
theorem getEpochRounded_mul (n : ℤ) {half : ℤ} (h : 0 < half) :
    getEpochRounded (n * (half * 2)) (half * 2) = n := by
  have hhalf : half * 2 / 2 = half := by omega
  have hscaled : (n * (half * 2)).tdiv half = n * 2 := by
    rw [(by ring : n * (half * 2) = n * 2 * half), Int.mul_tdiv_cancel _ h.ne']
  unfold getEpochRounded
  rw [hhalf, hscaled]
  dsimp only
  by_cases hneg : n * 2 < 0
  · rw [if_pos hneg]
    have hdiv := Int.neg_tdiv (-(n * 2 - 1)) 2
    rw [neg_neg, Int.tdiv_eq_ediv_of_nonneg (by omega : 0 ≤ -(n * 2 - 1))] at hdiv
    omega
  · rw [if_neg hneg, Int.tdiv_eq_ediv_of_nonneg (by omega)]
    omega

/-- What is not finite is read as such. -/
theorem castToUnit_infinity (unit : TimestampUnit) :
    castToUnit unit infinityText = some EngineTimestamp.infinity ∧
      castToUnit unit ('-' :: infinityText) = some (-EngineTimestamp.infinity) := by
  cases unit <;> decide +kernel

theorem not_isFinite {days : ℤ} (h : ¬EngineDate.IsFinite days) :
    days = EngineDate.infinity ∨ days = -EngineDate.infinity := by
  unfold EngineDate.IsFinite at h
  omega

theorem infinite_cases {value : ℤ} (h : ¬EngineTimestamp.IsFinite value) :
    value = EngineTimestamp.infinity ∨ value = -EngineTimestamp.infinity := by
  unfold EngineTimestamp.IsFinite at h
  omega

/-- The infinite timestamps are odd. -/
theorem isFinite_of_even (value half : ℤ) : EngineTimestamp.IsFinite (value * (half * 2)) := by
  rw [← mul_assoc]
  unfold EngineTimestamp.IsFinite EngineTimestamp.infinity
  omega

/-- The text of the day before the one that is infinite has no date. -/
theorem castToDate_first : castToDate (dateText (-2147483648)) = none := by
  let first : Date := ⟨-5877641, 6, 23, by decide, by decide, by decide, by decide⟩
  obtain ⟨d, hd, hconvert⟩ := EngineDate.convert_spec (-2147483648)
  have hfirst : first.number = -2147483648 + EngineDate.epochNumber := by decide
  obtain rfl : d = first := Date.eq_of_number_eq (hd.trans hfirst.symm)
  rw [dateText, if_neg (by decide), if_neg (by decide), hconvert]
  decide +kernel

/-- A unit that is a number of microseconds is written and read like them. -/
theorem castToUnit_of_mul {unit : TimestampUnit} {half value : ℤ} (hpos : 0 < half)
    (hunit : ∀ text, castToUnit unit text = (castToTimestamp text).map fun timestamp =>
      if EngineTimestamp.IsFinite timestamp then getEpochRounded timestamp (half * 2)
      else timestamp)
    {text : List Char} (hfin : EngineTimestamp.IsFinite (value * (half * 2)))
    (htext : castToTimestamp text = some (value * (half * 2))) :
    castToUnit unit text = some value := by
  rw [hunit, htext, Option.map_some, if_pos hfin, getEpochRounded_mul value hpos]

end HaybarnOdbc.TemporalText

namespace HaybarnOdbc

open MachineInt TemporalText

/-- The timestamps whose days the casts can count. -/
def TimestampUnit.Counts : TimestampUnit → ℤ → Prop
  | .sec, value => -9223372022400 ≤ value ∧ value ≤ 9223372036854
  | .ms, value => -9223372022400000 ≤ value ∧ value ≤ 9223372036854775
  | .us, value => -9223372022400000000 ≤ value
  | .ns, value => -9223286400000000000 ≤ value

namespace TemporalValue

/-- The cast of a text to the type of the value. -/
def castBack : TemporalValue → List Char → Option ℤ
  | date .. => TemporalText.castToDate
  | time .. => TemporalText.castToTime
  | timestamp u .. => castToUnit u

/-- The number that the engine keeps. -/
def number : TemporalValue → ℤ
  | date days _ => days
  | time micros _ _ => micros
  | timestamp _ value _ => value

/-- The values whose days the casts can count. The day before the infinite one has a text, but
no date. -/
def Counted : TemporalValue → Prop
  | date days _ => days ≠ -2147483648
  | time .. => True
  | timestamp u value _ => EngineTimestamp.IsFinite value → u.Counts value

/-- The value has a text, which is read as the value. -/
def ReadsBack (v : TemporalValue) : Prop :=
  ∃ text, v.toText = .ok text ∧ v.castBack text = some v.number

theorem readsBack_date_iff {days : ℤ} (h32 : i32.Fits days) :
    (date days h32).ReadsBack ↔ days ≠ -2147483648 := by
  have h := fits_i32.1 h32
  constructor
  · rintro ⟨text, htext, hread⟩ rfl
    cases htext
    rw [castBack, castToDate_first] at hread
    cases hread
  · intro hne
    refine ⟨_, rfl, ?_⟩
    change TemporalText.castToDate (dateText days) = some days
    by_cases hfin : EngineDate.IsFinite days
    · obtain ⟨d, hd, hconvert⟩ := EngineDate.convert_spec days
      obtain ⟨hinf, hninf⟩ := hfin
      have htext : dateText days = formatDate d.year d.month d.day := by
        rw [dateText, if_neg hinf, if_neg hninf, hconvert]
      unfold EngineDate.infinity at hinf hninf
      have hread := tryConvertDate_formatDate d hd (by omega) (by omega)
        (show Behind [] from .inl rfl)
      rw [List.append_nil] at hread
      rw [htext, TemporalText.castToDate, hread]
      rfl
    · rcases not_isFinite hfin with rfl | rfl
      · decide +kernel
      · decide +kernel

theorem readsBack_time {micros : ℤ} (h0 : 0 ≤ micros) (hle : micros ≤ microsPerDay) :
    (time micros h0 hle).ReadsBack := by
  refine ⟨_, rfl, ?_⟩
  have hread := tryConvertInternal_formatTime false 0 h0 hle (by decide)
    fun hne => absurd rfl hne
  change TemporalText.castToTime (formatTime micros ((0 * 1000 : ℕ) : ℤ)) = some micros
  rw [TemporalText.castToTime, hread]
  exact if_pos hle

theorem not_of_error {msg : String} {p : List Char → Prop} :
    ¬∃ text, (.error msg : Except String (List Char)) = .ok text ∧ p text := by
  rintro ⟨text, htext, -⟩
  cases htext

/-- A timestamp whose unit is a number of microseconds is written as one of microseconds, if the
engine can multiply it. -/
theorem readsBack_of_mul {u : TimestampUnit} {value half : ℤ} {msg : String}
    (h64 : i64.Fits value) (hpos : 0 < half)
    (htext : (timestamp u value h64).toText =
      (EngineTimestamp.tryMultiply value (half * 2)).elim (.error msg) (timestampText false))
    (hcast : ∀ text, castToUnit u text = (castToTimestamp text).map fun timestamp =>
      if EngineTimestamp.IsFinite timestamp then getEpochRounded timestamp (half * 2)
      else timestamp) :
    (timestamp u value h64).ReadsBack ↔
      i64.Fits (value * (half * 2)) ∧ -9223372022400000000 ≤ value * (half * 2) := by
  unfold ReadsBack
  rw [htext, EngineTimestamp.tryMultiply]
  by_cases hfits : i64.Fits (value * (half * 2))
  · have hfin := isFinite_of_even value half
    obtain ⟨hwritten, hthrown⟩ := timestampText_micros hfits hfin
    rw [if_pos hfits, Option.elim_some]
    by_cases hday : -9223372022400000000 ≤ value * (half * 2)
    · obtain ⟨text, htext, hread⟩ := hwritten hday
      exact iff_of_true ⟨text, htext, castToUnit_of_mul hpos hcast hfin hread⟩ ⟨hfits, hday⟩
    · rw [hthrown hday]
      exact iff_of_false not_of_error fun hand => hday hand.2
  · rw [if_neg hfits, Option.elim_none]
    exact iff_of_false not_of_error fun hand => hfits hand.1

theorem toText_sec {value : ℤ} (h64 : i64.Fits value) (hfin : EngineTimestamp.IsFinite value) :
    (timestamp .sec value h64).toText = (EngineTimestamp.tryMultiply value (500000 * 2)).elim
      (.error "Could not convert Timestamp(S) to Timestamp(US)") (timestampText false) := by
  have hmicros : toMicros .sec value = EngineTimestamp.fromEpochSeconds value := if_pos hfin
  rw [toText, hmicros, EngineTimestamp.fromEpochSeconds]
  · change _ = (EngineTimestamp.tryMultiply value microsPerSec).elim _ _
    cases EngineTimestamp.tryMultiply value microsPerSec <;> rfl
  · intro h
    cases h
  · intro h
    cases h

theorem toText_ms {value : ℤ} (h64 : i64.Fits value) (hfin : EngineTimestamp.IsFinite value) :
    (timestamp .ms value h64).toText = (EngineTimestamp.tryMultiply value (500 * 2)).elim
      (.error "Could not convert Timestamp(MS) to Timestamp(US)") (timestampText false) := by
  have hmicros : toMicros .ms value = EngineTimestamp.fromEpochMs value := if_pos hfin
  rw [toText, hmicros, EngineTimestamp.fromEpochMs]
  · change _ = (EngineTimestamp.tryMultiply value 1000).elim _ _
    cases EngineTimestamp.tryMultiply value 1000 <;> rfl
  · intro h
    cases h
  · intro h
    cases h

theorem readsBack_infinite {u : TimestampUnit} {value : ℤ} (h64 : i64.Fits value)
    (hinf : ¬EngineTimestamp.IsFinite value) : (timestamp u value h64).ReadsBack := by
  obtain ⟨hread, hread'⟩ := castToUnit_infinity u
  rcases infinite_cases hinf with rfl | rfl
  · refine ⟨infinityText, ?_, hread⟩
    cases u <;> rfl
  · refine ⟨'-' :: infinityText, ?_, hread'⟩
    cases u <;> rfl

/-- The units of microseconds and of nanoseconds are written as they are. -/
theorem readsBack_finite {u : TimestampUnit} {value : ℤ} (h64 : i64.Fits value)
    (hfin : EngineTimestamp.IsFinite value) :
    (timestamp u value h64).ReadsBack ↔ u.Counts value := by
  have h := fits_i64.1 h64
  cases u with
  | sec =>
    refine (readsBack_of_mul h64 (by decide) (toText_sec h64 hfin) fun text => rfl).trans ?_
    unfold TimestampUnit.Counts
    rw [fits_i64]
    omega
  | ms =>
    refine (readsBack_of_mul h64 (by decide) (toText_ms h64 hfin) fun text => rfl).trans ?_
    unfold TimestampUnit.Counts
    rw [fits_i64]
    omega
  | us =>
    obtain ⟨hwritten, hthrown⟩ := timestampText_micros h64 hfin
    by_cases hday : -9223372022400000000 ≤ value
    · exact iff_of_true (hwritten hday) hday
    · refine iff_of_false (fun hback => ?_) hday
      obtain ⟨_, htext, -⟩ := hback
      rw [toText, hthrown hday] at htext
      cases htext
  | ns =>
    obtain ⟨hwritten, hthrown⟩ := timestampText_nanos h64 hfin
    by_cases hday : -9223286400000000000 ≤ value
    · exact iff_of_true (hwritten hday) hday
    · refine iff_of_false (fun hback => ?_) hday
      obtain ⟨_, htext, -⟩ := hback
      rw [toText, hthrown hday] at htext
      cases htext

/-- The text of a value is read as the value by the cast to its type, for all dates and times
but the ones that the cast cannot count. -/
theorem text_read_back_iff (v : TemporalValue) : v.ReadsBack ↔ v.Counted := by
  cases v with
  | date days h32 => exact readsBack_date_iff h32
  | time micros h0 hle => exact iff_of_true (readsBack_time h0 hle) trivial
  | timestamp u value h64 =>
    by_cases hfin : EngineTimestamp.IsFinite value
    · exact (readsBack_finite h64 hfin).trans ⟨fun h _ => h, fun h => h hfin⟩
    · exact iff_of_true (readsBack_infinite h64 hfin) fun h => absurd h hfin

end TemporalValue

end HaybarnOdbc
