import HaybarnOdbc.BatchValues

/-!
# Arrays of parameters of fixed length

A parameter that is bound column-wise has its values back to back in an array, one for each
parameter set, and an array of indicators beside it. `FixedType` lists the pairs of a C type
and an SQL type that have one layout; an element of a type is a value of its range, so that its
bytes are read back as that value (`fixedValue_encode`).

A batch over such arrays that starts at the first set executes the statement once for each
set, with the values of that set (`batch_executes_arrays`).
-/

namespace HaybarnOdbc

open MachineInt Bytes

variable {ρ V : Type}

/-! ## Elements -/

/-- The integers of the SQL types. -/
inductive IntWidth
  | tinyint
  | smallint
  | integer
  | bigint
  deriving DecidableEq, Repr

/-- The bytes of an integer of the width. -/
def IntWidth.bytes : IntWidth → ℕ
  | .tinyint => 1
  | .smallint => 2
  | .integer => 4
  | .bigint => 8

/-- The integers of a C type. -/
def IntWidth.type (w : IntWidth) (signed : Bool) : IntType := ⟨signed, 8 * w.bytes⟩

/-- The value of the engine for an integer of the SQL type. -/
def IntWidth.value (w : IntWidth) (signed : Bool) (n : ℤ) : EngineValue :=
  match w, signed with
  | .tinyint, true => .tinyint n
  | .tinyint, false => .utinyint n
  | .smallint, true => .smallint n
  | .smallint, false => .usmallint n
  | .integer, true => .integer n
  | .integer, false => .uinteger n
  | .bigint, true => .bigint n
  | .bigint, false => .ubigint n

/-- The types whose values have a fixed length and one layout in C and for `SetValue`. -/
inductive FixedType
  | int (w : IntWidth) (signed : Bool)
  | float
  | double
  | date
  | time
  | timestamp
  deriving DecidableEq, Repr

/-- A `SQL_DATE_STRUCT` that holds a date. -/
structure DateElement where
  date : Calendar.Date
  fits : i16.Fits date.year

/-- A `SQL_TIME_STRUCT` that holds a time of the day. -/
structure TimeElement where
  hour : ℕ
  minute : ℕ
  second : ℕ
  hour_lt : hour < 24
  minute_lt : minute < 60
  second_lt : second < 60

/-- A `SQL_TIMESTAMP_STRUCT` that holds a point in time. The fraction is in nanoseconds. -/
structure TimestampElement where
  date : DateElement
  time : TimeElement
  fraction : ℕ
  fraction_lt : fraction < 10 ^ 9

namespace FixedType

/-- The SQL type. -/
def sqlType : FixedType → ℤ
  | .int .tinyint _ => sqlTinyint
  | .int .smallint _ => sqlSmallint
  | .int .integer _ => sqlInteger
  | .int .bigint _ => sqlBigint
  | .float => sqlFloat
  | .double => sqlDouble
  | .date => sqlTypeDate
  | .time => sqlTypeTime
  | .timestamp => sqlTypeTimestamp

/-- The C types of the layout. -/
def cTypes : FixedType → List ℤ
  | .int .tinyint true => [-6, -26]
  | .int .tinyint false => [sqlCUtinyint]
  | .int .smallint true => [5, -15]
  | .int .smallint false => [sqlCUshort]
  | .int .integer true => [4, -16]
  | .int .integer false => [sqlCUlong]
  | .int .bigint true => [-25]
  | .int .bigint false => [sqlCUbigint]
  | .float => [7]
  | .double => [8]
  | .date => [9, 91]
  | .time => [10, 92]
  | .timestamp => [11, 93]

/-- The size of an element. -/
def size : FixedType → ℕ
  | .int w _ => w.bytes
  | .float => 4
  | .double => 8
  | .date => 6
  | .time => 6
  | .timestamp => 16

/-- An element of an array : a number of the range of the C type, the bits of a floating
point number, or a struct with valid fields. -/
def Element : FixedType → Type
  | .int w signed => { n : ℤ // (w.type signed).Fits n }
  | .float => Fin (2 ^ 32)
  | .double => Fin (2 ^ 64)
  | .date => DateElement
  | .time => TimeElement
  | .timestamp => TimestampElement

end FixedType

/-- The bytes of a `SQL_DATE_STRUCT`. -/
def DateElement.encode (d : DateElement) : List UInt8 :=
  ofInt 2 d.date.year ++ ofNat 2 d.date.month ++ ofInt 2 d.date.day

/-- The bytes of a `SQL_TIME_STRUCT`. -/
def TimeElement.encode (t : TimeElement) : List UInt8 :=
  ofNat 2 t.hour ++ ofNat 2 t.minute ++ ofNat 2 t.second

/-- The bytes of a `SQL_TIMESTAMP_STRUCT`. -/
def TimestampElement.encode (t : TimestampElement) : List UInt8 :=
  t.date.encode ++ t.time.encode ++ ofNat 4 t.fraction

/-- The day of a date, from the epoch on. -/
def DateElement.days (d : DateElement) : ℤ := d.date.number - EngineDate.epochNumber

/-- The microseconds of a time of the day. -/
def TimeElement.micros (t : TimeElement) : ℤ :=
  (t.hour * 3600 + t.minute * 60 + t.second) * 1000000

/-- The microseconds of a point in time. -/
def TimestampElement.micros (t : TimestampElement) : ℤ :=
  t.date.days * 86400000000 + t.time.micros + (t.fraction / 1000 : ℕ)

namespace FixedType

/-- The bytes of an element. -/
def encode : (type : FixedType) → type.Element → List UInt8
  | .int w _, n => ofInt w.bytes n.val
  | .float, bits => ofNat 4 bits.val
  | .double, bits => ofNat 8 bits.val
  | .date, d => DateElement.encode d
  | .time, t => TimeElement.encode t
  | .timestamp, t => TimestampElement.encode t

/-- The value of the engine that an element stands for. -/
def value : (type : FixedType) → type.Element → EngineValue
  | .int w signed, n => w.value signed n.val
  | .float, bits => .float bits.val
  | .double, bits => .double bits.val
  | .date, d => .date (DateElement.days d)
  | .time, t => .time (TimeElement.micros t)
  | .timestamp, t => .timestamp (TimestampElement.micros t)

end FixedType

/-! ## Reading an element back -/

theorem field_append_left {a b : List UInt8} {offset size : ℕ} (h : offset + size ≤ a.length) :
    field (a ++ b) offset size = field a offset size := by
  rw [field, field, List.drop_append_of_le_length (by omega),
    List.take_append_of_le_length (by rw [List.length_drop]; omega)]

theorem field_append_right {a b : List UInt8} {offset size : ℕ} (k : ℕ)
    (h : a.length + k = offset) : field (a ++ b) offset size = field b k size := by
  rw [field, field, ← h, List.drop_append, List.drop_eq_nil_of_le (Nat.le_add_right _ _),
    Nat.add_sub_cancel_left, List.nil_append]

theorem field_self {a : List UInt8} {n : ℕ} (h : a.length = n) : field a 0 n = a := by
  rw [field, List.drop_zero, ← h, List.take_length]

/-- The three fields of a struct of dates or of times. -/
theorem fields_of_three {a b c : List UInt8} (ha : a.length = 2) (hb : b.length = 2)
    (hc : c.length = 2) :
    field (a ++ b ++ c) 0 2 = a ∧ field (a ++ b ++ c) 2 2 = b ∧ field (a ++ b ++ c) 4 2 = c := by
  refine ⟨?_, ?_, ?_⟩
  · rw [List.append_assoc, field_append_left (by omega), field_self ha]
  · rw [List.append_assoc, field_append_right 0 (by omega), field_append_left (by omega),
      field_self hb]
  · rw [field_append_right 0 (by rw [List.length_append, ha, hb]), field_self hc]

namespace DateElement

variable (d : DateElement)

@[simp] theorem length_encode : d.encode.length = 6 := by simp [encode]

/-- The date of the struct is found, whatever is behind it. -/
theorem fromDate_encode (rest : List UInt8) :
    EngineDate.fromDate (toInt (field (d.encode ++ rest) 0 2))
      (toNat (field (d.encode ++ rest) 2 2)) (toNat (field (d.encode ++ rest) 4 2)) =
      .ok d.days := by
  obtain ⟨hyear, hmonth, hday⟩ := fields_of_three (length_ofInt 2 d.date.year)
    (length_ofNat 2 d.date.month) (length_ofInt 2 d.date.day)
  have hfits := fits_i16.mp d.fits
  have hmonthle := d.date.month_le
  have hdaypos := d.date.day_pos
  have hdayle := d.date.day_le.trans (Calendar.daysInMonth_le _ _)
  have hdayread : ((toNat (ofInt 2 d.date.day) : ℕ) : ℤ) = d.date.day :=
    toNat_ofInt_of_nonneg (by omega) (by omega)
  rw [field_append_left (by simp), field_append_left (by simp), field_append_left (by simp), encode,
    hyear, hmonth, hday, toInt_ofInt (by omega) (by omega), toNat_ofNat,
    Nat.mod_eq_of_lt (by omega), hdayread,
    EngineDate.fromDate_of_date d.date (by omega) (by omega)]
  rfl

theorem dateValue_encode : dateValue d.encode = .ok (.date d.days) := by
  have hread := d.fromDate_encode []
  rw [List.append_nil] at hread
  rw [dateValue, hread]
  rfl

/-- The dates of the struct are well within the range of timestamps. -/
theorem days_bounds : -20000000 < d.days ∧ d.days < 20000000 := by
  have hfits := fits_i16.mp d.fits
  have hlow := d.date.daysBeforeYear_le_number
  have hhigh := d.date.number_lt_daysBeforeYear
  have hepoch : EngineDate.epochNumber = 719162 := rfl
  unfold Calendar.daysBeforeYear at hlow hhigh
  unfold days
  omega

end DateElement

namespace TimeElement

variable (t : TimeElement)

@[simp] theorem length_encode : t.encode.length = 6 := by simp [encode]

theorem fields_encode : toNat (field t.encode 0 2) = t.hour ∧
    toNat (field t.encode 2 2) = t.minute ∧ toNat (field t.encode 4 2) = t.second := by
  have := t.hour_lt
  have := t.minute_lt
  have := t.second_lt
  obtain ⟨hhour, hminute, hsecond⟩ := fields_of_three (length_ofNat 2 t.hour)
    (length_ofNat 2 t.minute) (length_ofNat 2 t.second)
  rw [encode, hhour, hminute, hsecond, toNat_ofNat, toNat_ofNat, toNat_ofNat,
    Nat.mod_eq_of_lt (by omega), Nat.mod_eq_of_lt (by omega), Nat.mod_eq_of_lt (by omega)]
  exact ⟨rfl, rfl, rfl⟩

theorem fromTime_eq (micros : ℤ) :
    EngineTime.fromTime t.hour t.minute t.second micros = t.micros + micros := by
  simp only [EngineTime.fromTime, TimeElement.micros, minsPerHour, secsPerMinute, microsPerSec]
  omega

theorem timeValue_encode : timeValue t.encode = .time t.micros := by
  obtain ⟨hhour, hminute, hsecond⟩ := t.fields_encode
  rw [timeValue, hhour, hminute, hsecond, t.fromTime_eq, add_zero]

theorem micros_bounds : 0 ≤ t.micros ∧ t.micros < 86400000000 := by
  have := t.hour_lt
  have := t.minute_lt
  have := t.second_lt
  unfold micros
  omega

end TimeElement

namespace TimestampElement

variable (t : TimestampElement)

theorem length_encode : t.encode.length = 16 := by simp [encode]

theorem timestampValue_encode : timestampValue t.encode = .ok (.timestamp t.micros) := by
  have hlt := t.fraction_lt
  have hdate := t.date.days_bounds
  have htime := t.time.micros_bounds
  obtain ⟨hhour, hminute, hsecond⟩ := t.time.fields_encode
  have hbytes : t.encode = t.date.encode ++ (t.time.encode ++ ofNat 4 t.fraction) :=
    List.append_assoc _ _ _
  have hfield : ∀ offset, offset + 2 ≤ 6 →
      field t.encode (6 + offset) 2 = field t.time.encode offset 2 := fun offset h => by
    rw [hbytes, field_append_right offset (by simp), field_append_left (by simpa using h)]
  have hfraction : toNat (field t.encode 12 4) = t.fraction := by
    rw [encode, field_append_right 0 (by simp), field_self (length_ofNat _ _), toNat_ofNat,
      Nat.mod_eq_of_lt (by omega)]
  have hpoint : EngineTimestamp.fromDatetime t.date.days
      (t.time.micros + (t.fraction / 1000 : ℕ)) = .ok t.micros := by
    have hmultiply : EngineTimestamp.tryMultiply t.date.days microsPerDay =
        some (t.date.days * microsPerDay) := if_pos (by
      simp only [microsPerDay]
      exact fits_i64.mpr ⟨by omega, by omega⟩)
    have hsum : t.date.days * microsPerDay + (t.time.micros + (t.fraction / 1000 : ℕ)) =
        t.micros := by
      simp only [microsPerDay, micros]
      omega
    have hbounds : -2 ^ 62 < t.micros ∧ t.micros < 2 ^ 62 := by
      unfold micros
      omega
    have hrange : i64.Fits t.micros ∧ EngineTimestamp.IsFinite t.micros := by
      refine ⟨fits_i64.mpr ⟨by omega, by omega⟩, ?_⟩
      unfold EngineTimestamp.IsFinite EngineTimestamp.infinity
      omega
    rw [EngineTimestamp.fromDatetime, EngineTimestamp.tryFromDatetime, hmultiply]
    dsimp only [Option.bind_eq_bind, Option.bind_some]
    rw [hsum, if_pos hrange]
  have hdateread := t.date.fromDate_encode (t.time.encode ++ ofNat 4 t.fraction)
  rw [← hbytes] at hdateread
  unfold timestampValue
  rw [hdateread, hfield 0 (by omega), hfield 2 (by omega), hfield 4 (by omega), hhour, hminute,
    hsecond, hfraction]
  dsimp only [Except.bind, bind, pure, Except.pure]
  rw [t.time.fromTime_eq, hpoint]

end TimestampElement

/-- A number of a signed type of whole bytes is read back. -/
theorem toInt_ofInt_of_fits {k : ℕ} {n : ℤ} (hk : 0 < k) (h : (IntType.mk true (8 * k)).Fits n) :
    toInt (ofInt k n) = n := by
  have hpow : (256 : ℤ) ^ k = 2 ^ (8 * k) := by
    rw [pow_mul]
    rfl
  have hbits : (2 : ℤ) ^ (8 * k) = 2 ^ (8 * k - 1) + 2 ^ (8 * k - 1) :=
    IntType.two_pow_bits (t := ⟨true, 8 * k⟩) (by show 0 < 8 * k; omega)
  have hrange : -2 ^ (8 * k - 1) ≤ n ∧ n < 2 ^ (8 * k - 1) := h
  exact toInt_ofInt (by omega) (by omega)

theorem toNat_ofInt_of_fits {k : ℕ} {n : ℤ} (h : (IntType.mk false (8 * k)).Fits n) :
    (toNat (ofInt k n) : ℤ) = n := by
  have hpow : (256 : ℤ) ^ k = 2 ^ (8 * k) := by
    rw [pow_mul]
    rfl
  have hrange : 0 ≤ n ∧ n < 2 ^ (8 * k) := h
  exact toNat_ofInt_of_nonneg hrange.1 (by omega)

namespace FixedType

theorem length_encode (type : FixedType) (e : type.Element) :
    (type.encode e).length = type.size := by
  cases type with
  | int w signed => exact length_ofInt _ _
  | float => exact length_ofNat _ _
  | double => exact length_ofNat _ _
  | date => exact DateElement.length_encode e
  | time => exact TimeElement.length_encode e
  | timestamp => exact TimestampElement.length_encode e

/-- `SetValue` tells the sign of an integer by the C type. -/
theorem fixedValue_int (w : IntWidth) (signed : Bool) {cType : ℤ}
    (hc : cType ∈ (FixedType.int w signed).cTypes) (bytes : List UInt8) (precision scale : ℤ) :
    fixedValue (FixedType.int w signed).sqlType cType precision scale bytes =
      .ok (w.value signed (if signed then toInt bytes else toNat bytes)) := by
  cases w <;> cases signed <;>
  · simp only [cTypes, List.mem_cons, List.not_mem_nil, or_false] at hc
    rcases hc with rfl | rfl <;> rfl

/-- The bytes of an element are read back as its value. -/
theorem fixedValue_encode (type : FixedType) {cType : ℤ} (hc : cType ∈ type.cTypes)
    (e : type.Element) (precision scale : ℤ) :
    fixedValue type.sqlType cType precision scale (type.encode e) = .ok (type.value e) := by
  cases type with
  | int w signed =>
    have hpos : 0 < w.bytes := by cases w <;> decide
    have hread : (if signed then toInt (ofInt w.bytes e.val) else toNat (ofInt w.bytes e.val)) =
        e.val := by
      cases signed with
      | true => exact toInt_ofInt_of_fits hpos e.property
      | false => exact toNat_ofInt_of_fits e.property
    rw [fixedValue_int w signed hc]
    exact congrArg (fun n => Except.ok (w.value signed n)) hread
  | float =>
    have hread : toNat (ofNat 4 e.val) = e.val := by
      rw [toNat_ofNat]
      exact Nat.mod_eq_of_lt e.isLt
    exact congrArg (fun bits => Except.ok (EngineValue.float bits)) hread
  | double =>
    have hread : toNat (ofNat 8 e.val) = e.val := by
      rw [toNat_ofNat]
      exact Nat.mod_eq_of_lt e.isLt
    exact congrArg (fun bits => Except.ok (EngineValue.double bits)) hread
  | date => exact DateElement.dateValue_encode e
  | time => exact congrArg Except.ok (TimeElement.timeValue_encode e)
  | timestamp => exact TimestampElement.timestampValue_encode e

end FixedType

/-! ## Arrays in the memory of the application -/

/-- An array of a parameter : its type, and for each parameter set an element or a null. -/
structure FixedArray where
  type : FixedType
  cType : ℤ
  cType_mem : cType ∈ type.cTypes
  element : ℕ → type.Element
  isNull : ℕ → Bool

/-- The value of a parameter set. -/
def FixedArray.valueAt (a : FixedArray) (i : ℕ) : EngineValue :=
  if a.isNull i then .null else a.type.value (a.element i)

/-- A parameter is bound to an array of `n` elements, whose indicators tell the nulls and name
no data at execution. -/
structure Talk.HoldsArray (t : Talk ρ V) (p : ℕ) (a : FixedArray) (n : ℕ)
    (apdRecord ipdRecord : DescRecord) : Prop where
  apd : t.desc.apd.records[p]? = some apdRecord
  ipd : t.desc.ipd.records[p]? = some ipdRecord
  valueType : apdRecord.type = a.cType
  parameterType : ipdRecord.type = a.type.sqlType
  dataPtr : apdRecord.dataPtr ≠ 0
  indicatorPtr : apdRecord.indicatorPtr ≠ 0
  null : ∀ i < n, a.isNull i = true → t.mem.indicators (apdRecord.indicatorAddr i) = sqlNullData
  present : ∀ i < n, a.isNull i = false → t.mem.indicators (apdRecord.indicatorAddr i) ∉
    [sqlNullData, sqlDataAtExec, sqlLenDataAtExec ipdRecord.length]
  element : ∀ i < n, a.isNull i = false →
    Buffer.load (t.mem.block apdRecord.dataPtr) (i * a.type.size) a.type.size =
      some (a.type.encode (a.element i))

theorem FixedType.isFixed {type : FixedType} {cType : ℤ} (hc : cType ∈ type.cTypes)
    {apdRecord ipdRecord : DescRecord} (hvalue : apdRecord.type = cType)
    (hparam : ipdRecord.type = type.sqlType) : IsFixed apdRecord ipdRecord type.size where
  size_eq := by
    rw [hparam]
    cases type with
    | int w signed => cases w <;> rfl
    | _ => rfl
  notText := by
    have hcodes : ∀ c ∈ type.cTypes, c ≠ 1 ∧ c ≠ -8 := by
      cases type with
      | int w signed => cases w <;> cases signed <;> decide
      | _ => decide
    rw [hvalue]
    exact hcodes _ hc
  valid hnumeric := by
    rw [hparam] at hnumeric
    cases type with
    | int w signed => cases w <;> cases hnumeric
    | _ => cases hnumeric

/-- The value of a parameter set is the element of the set, or null. -/
theorem Talk.HoldsArray.boundParam_eq {t : Talk ρ V} {p n i : ℕ} {a : FixedArray}
    {apdRecord ipdRecord : DescRecord} (h : t.HoldsArray p a n apdRecord ipdRecord) (hi : i < n) :
    t.boundParam p i = some (.value (a.valueAt i), t.mem) := by
  cases hnull : a.isNull i with
  | true =>
    have hset : t.setValue p i = some (.value .null, t.mem) := by
      unfold Talk.setValue
      rw [h.apd, h.ipd]
      dsimp only
      rw [if_neg fun hz => h.dataPtr hz.1, if_neg (not_or.mpr ⟨h.dataPtr, h.indicatorPtr⟩),
        if_pos (h.null i hi hnull)]
    rw [Talk.boundParam, hset, h.ipd, FixedArray.valueAt, if_pos hnull]
    rfl
  | false =>
    have hreads : t.Reads p i apdRecord ipdRecord :=
      ⟨h.apd, h.ipd, h.dataPtr, h.indicatorPtr, h.present i hi hnull⟩
    rw [hreads.boundParam_fixed (FixedType.isFixed a.cType_mem h.valueType h.parameterType)
      (h.element i hi hnull), h.valueType, h.parameterType,
      a.type.fixedValue_encode a.cType_mem, FixedArray.valueAt, if_neg (by simp [hnull])]

/-- A prepared statement over `n` parameter sets, with an array bound to each of its
parameters, before its first set. -/
structure Talk.BoundArrays (t : Talk ρ EngineValue) (arrays : List FixedArray) (n : ℕ) :
    Prop where
  nonempty : arrays ≠ []
  records : t.desc.ipd.records.length = arrays.length
  holds : ∀ p a, arrays[p]? = some a →
    ∃ apdRecord ipdRecord, t.HoldsArray p a n apdRecord ipdRecord
  arraySize : t.desc.apd.header.arraySize = n
  pos : 1 ≤ n
  lt : n < 2 ^ 64
  first : t.desc.paramsetIdx = 0
  prepared : t.h.stmt.isSome

/-- The values of a parameter set. -/
def setValues (arrays : List FixedArray) (i : ℕ) : List EngineValue :=
  arrays.map fun a => a.valueAt i

theorem Talk.BoundArrays.source_eq {t : Talk ρ EngineValue} {arrays : List FixedArray} {n i p : ℕ}
    (h : t.BoundArrays arrays n) (hi : i < n) {a : FixedArray} (ha : arrays[p]? = some a) :
    t.source p i = .value (a.valueAt i) := by
  obtain ⟨apdRecord, ipdRecord, harray⟩ := h.holds p a ha
  rw [Talk.source, harray.boundParam_eq hi]

/-! ## Reading a set -/

namespace OdbcHandleStmt

/-- The loop of `GetParamValues` over records that all have a value. -/
theorem readRecords_of_values {source : ParamSource V} {set : ℕ} (values : List V) :
    ∀ (j : ℕ) (vals : List V) (h : OdbcHandleStmt ρ V) (log : List (ExecEvent V)),
      h.paramDesc.paramsetIdx = set → j ≤ h.paramDesc.values.length →
      (∀ r v, values[r]? = some v → source (j + r) set = .value v) →
      ∃ cached, readRecords source (List.range' j values.length) vals h log =
        .ok (vals ++ values, ⟨.success, { h with paramDesc.values := cached },
          log ++ if h.paramDesc.ipd.header.arrayStatusPtr ≠ 0 then
            List.replicate values.length (.paramStatus set .success) else []⟩) := by
  induction values with
  | nil =>
    intro j vals h log _ _ _
    refine ⟨h.paramDesc.values, ?_⟩
    simp [readRecords]
  | cons v values ih =>
    intro j vals h log hset hlen hsource
    have hv : source j set = .value v := hsource 0 v rfl
    have hput : (h.paramDesc.putValue v j).values[j]? = some v :=
      ParameterDescriptor.getElem?_putValue hlen v
    obtain ⟨cached, hcached⟩ : ∃ cached,
        h.paramDesc.putValue v j = { h.paramDesc with values := cached } := by
      unfold ParameterDescriptor.putValue
      split <;> exact ⟨_, rfl⟩
    have hnext : j + 1 ≤ cached.length := by
      rw [hcached] at hput
      exact (List.getElem?_eq_some_iff.mp hput).1
    obtain ⟨cached', hrest⟩ := ih (j + 1) (vals ++ [v])
      { h with paramDesc.values := cached }
      (log ++ if h.paramDesc.ipd.header.arrayStatusPtr ≠ 0 then [.paramStatus set .success] else [])
      hset hnext fun r w hr => by
        rw [Nat.add_assoc, Nat.add_comm 1]
        exact hsource (r + 1) w hr
    refine ⟨cached', ?_⟩
    rw [List.length_cons, List.range'_succ, readRecords]
    unfold ParameterDescriptor.setValue
    rw [hset, hv]
    dsimp only
    rw [hcached] at hput ⊢
    simp only [reduceCtorEq, if_false, ne_eq, not_true_eq_false, false_and, hput]
    rw [hrest, List.append_assoc, List.append_assoc, List.singleton_append, List.replicate_succ]
    split <;> rfl

/-- What reading a set logs whose parameters all have values. -/
def readLog (p : ParameterDescriptor V) : List (ExecEvent V) :=
  .readSet p.paramsetIdx ::
    ((if p.ipd.header.arrayStatusPtr ≠ 0 then
      List.replicate p.ipd.records.length (.paramStatus p.paramsetIdx .success) else []) ++
    if p.ipd.header.rowsProcessedPtr ≠ 0 then [.processed ((p.paramsetIdx + 1) % 2 ^ 64)] else [])

/-- `GetParamValues` of a set whose parameters all have values. -/
theorem getParamValues_of_values {source : ParamSource V} {values : List V}
    {h : OdbcHandleStmt ρ V} (hnil : values ≠ [])
    (hlen : h.paramDesc.ipd.records.length = values.length)
    (hsource : ∀ r v, values[r]? = some v → source r h.paramDesc.paramsetIdx = .value v) :
    ∃ cached, h.getParamValues source = .ok (values, ⟨setRet h.paramDesc,
      { h with
        paramDesc :=
          { h.paramDesc with
            values := cached, paramsetIdx := (h.paramDesc.paramsetIdx + 1) % 2 ^ 64 } },
      readLog h.paramDesc⟩) := by
  obtain ⟨cached, hread⟩ := readRecords_of_values values 0 [] h [.readSet h.paramDesc.paramsetIdx]
    rfl (Nat.zero_le _) fun r v hr => by
      rw [Nat.zero_add]
      exact hsource r v hr
  refine ⟨cached, ?_⟩
  have hrecords : h.paramDesc.ipd.records.isEmpty = false := by
    rw [List.isEmpty_eq_false_iff_exists_mem]
    refine List.exists_mem_of_length_pos ?_
    rw [hlen]
    exact List.length_pos_iff.mpr hnil
  unfold getParamValues
  rw [hrecords, hlen, List.range_eq_range', hread]
  unfold readLog
  rw [hlen]
  rfl

/-- What the execution of a set logs whose parameters all have values. -/
def setLog (h : OdbcHandleStmt ρ V) (values : List V) : List (ExecEvent V) :=
  h.resetLog ++ readLog h.paramDesc ++ [.run values]

/-- `SingleExecuteStmt` over a set whose parameters all have values. -/
theorem singleExecuteStmt_of_values {source : ParamSource V} {values : List V}
    {h : OdbcHandleStmt ρ V} (result : QueryResult ρ) (hstmt : h.stmt.isSome) (hnil : values ≠ [])
    (hlen : h.paramDesc.ipd.records.length = values.length)
    (hsource : ∀ r v, values[r]? = some v → source r h.paramDesc.paramsetIdx = .value v) :
    ∃ x, h.singleExecuteStmt source result = .ok x ∧
      x.ret = (if result.error.isSome then .error else setRet h.paramDesc) ∧
      x.log = h.setLog values ∧ x.h.stmt = h.stmt ∧ x.h.rowsFetchedPtr = h.rowsFetchedPtr ∧
      ∃ cached, x.h.paramDesc = { h.paramDesc with
        values := cached, paramsetIdx := (h.paramDesc.paramsetIdx + 1) % 2 ^ 64 } := by
  obtain ⟨cached, hread⟩ := getParamValues_of_values (h := h.started) hnil hlen hsource
  have hgo : ¬(setRet h.paramDesc = .needData ∨ setRet h.paramDesc = .error) := by
    rcases setRet_eq h.paramDesc with hr | hr
    · simp [hr]
    · simp [hr]
  have hreturn : (if setRet h.paramDesc = .stillExecuting then SqlReturn.stillExecuting
      else .success) = setRet h.paramDesc := by
    rcases setRet_eq h.paramDesc with hr | hr
    · simp [hr]
    · simp [hr]
  obtain ⟨stmt, hs⟩ := Option.isSome_iff_exists.mp hstmt
  rw [singleExecuteStmt_eq result hread]
  dsimp only
  rw [show setRet h.started.paramDesc = setRet h.paramDesc from rfl, if_neg hgo, hreturn, hs]
  cases result.error with
  | some msg => exact ⟨_, rfl, rfl, rfl, hs, rfl, cached, rfl⟩
  | none => exact ⟨_, rfl, rfl, rfl, hs, rfl, cached, rfl⟩

end OdbcHandleStmt

/-! ## Executing over arrays -/

/-- The values of the runs, in order. -/
def runValues (log : List (ExecEvent V)) : List (List V) :=
  log.filterMap fun
    | .run values => some values
    | _ => none

/-- The last number of processed sets. -/
def lastProcessed (log : List (ExecEvent V)) : Option ℕ :=
  (log.filterMap fun
    | .processed n => some n
    | _ => none).getLast?

/-- The status that an event stores for a set. -/
def statusOf (set : ℕ) : ExecEvent V → Option SqlReturn
  | .paramStatus set' ret => if set' = set then some ret else none
  | _ => none

/-- The last status of a set. -/
def lastStatus (log : List (ExecEvent V)) (set : ℕ) : Option SqlReturn :=
  (log.filterMap (statusOf set)).getLast?

namespace Talk

variable {t : Talk ρ EngineValue} {arrays : List FixedArray} {n i : ℕ}

/-- What the execution of a set logs. -/
def setLog (t : Talk ρ EngineValue) (arrays : List FixedArray) (i : ℕ) :
    List (ExecEvent EngineValue) :=
  { t.h with paramDesc.paramsetIdx := i }.setLog (setValues arrays i)

/-- What the executions of the first `i` sets log. -/
def arraysLog (t : Talk ρ EngineValue) (arrays : List FixedArray) (i : ℕ) :
    List (ExecEvent EngineValue) :=
  (List.range i).flatMap (t.setLog arrays)

/-- The loop of a batch over arrays, after the executions of the first `i` sets. -/
structure AfterSets (t : Talk ρ EngineValue) (arrays : List FixedArray)
    (b : OdbcHandleStmt.Batch ρ EngineValue) (i : ℕ) : Prop where
  apd : b.h.paramDesc.apd = t.desc.apd
  ipd : b.h.paramDesc.ipd = t.desc.ipd
  idx : b.h.paramDesc.paramsetIdx = i
  stmt : b.h.stmt = t.h.stmt
  rowsFetchedPtr : b.h.rowsFetchedPtr = t.h.rowsFetchedPtr
  turn : b.turn = i
  log : b.log = t.arraysLog arrays i

/-- The code of the execution of a set. -/
def setCode (result : QueryResult ρ) (n i : ℕ) : SqlReturn :=
  if result.error.isSome then .error else if i + 1 = n then .success else .stillExecuting

theorem AfterSets.step {a : ExecAnswers ρ EngineValue} {b : OdbcHandleStmt.Batch ρ EngineValue}
    (hb : t.AfterSets arrays b i) (ht : t.BoundArrays arrays n) (hs : a.source = t.source)
    (hi : i < n) :
    ∃ b', OdbcHandleStmt.batchBody a b = .ok (setCode (a.results i) n i, b') ∧
      t.AfterSets arrays b' (i + 1) := by
  have hmod : (i + 1) % 2 ^ 64 = i + 1 := Nat.mod_eq_of_lt (by have := ht.lt; omega)
  have hlen : b.h.paramDesc.ipd.records.length = (setValues arrays i).length := by
    rw [hb.ipd, ht.records, setValues, List.length_map]
  have hsource : ∀ p v, (setValues arrays i)[p]? = some v →
      a.source p b.h.paramDesc.paramsetIdx = .value v := fun p v hv => by
    obtain ⟨array, harray, rfl⟩ := Option.map_eq_some_iff.mp (List.getElem?_map.symm.trans hv)
    rw [hs, hb.idx]
    exact ht.source_eq hi harray
  obtain ⟨x, hx, hret, hlog, hstmt, hptr, cached, hdesc⟩ :=
    OdbcHandleStmt.singleExecuteStmt_of_values (a.results b.turn) (hb.stmt ▸ ht.prepared)
      (by simpa [setValues] using ht.nonempty) hlen hsource
  have hcode : x.ret = setCode (a.results i) n i := by
    rw [hret, hb.turn, setCode, OdbcHandleStmt.setRet, hb.idx, hmod, hb.apd, ht.arraySize]
  have hsetLog : x.log = t.setLog arrays i := by
    rw [hlog, setLog, OdbcHandleStmt.setLog, OdbcHandleStmt.setLog, OdbcHandleStmt.resetLog,
      OdbcHandleStmt.resetLog, OdbcHandleStmt.readLog, OdbcHandleStmt.readLog, hb.rowsFetchedPtr,
      hb.ipd, hb.idx]
    rfl
  refine ⟨⟨x.h, b.turn + 1, b.log ++ x.log⟩, ?_, ?_, ?_, ?_, ?_, ?_, ?_, ?_⟩
  · rw [OdbcHandleStmt.batchBody, hx, ← hcode]
    rfl
  · rw [hdesc]
    exact hb.apd
  · rw [hdesc]
    exact hb.ipd
  · rw [hdesc]
    show (b.h.paramDesc.paramsetIdx + 1) % 2 ^ 64 = i + 1
    rw [hb.idx, hmod]
  · exact hstmt.trans hb.stmt
  · exact hptr.trans hb.rowsFetchedPtr
  · rw [hb.turn]
  · rw [hb.log, hsetLog, arraysLog, arraysLog, List.range_succ, List.flatMap_append,
      List.flatMap_singleton]

/-- The loop goes on to the set `e`, and ends after it if the engine fails there or if it is the
last one. The induction is on the sets that are left. -/
theorem AfterSets.run {a : ExecAnswers ρ EngineValue} (ht : t.BoundArrays arrays n)
    (hs : a.source = t.source) {e : ℕ} (he : e < n)
    (hlast : (a.results e).error.isSome ∨ e + 1 = n) (d : ℕ) :
    ∀ {b : OdbcHandleStmt.Batch ρ EngineValue}, i + d = e → t.AfterSets arrays b i →
      (∀ j, i ≤ j → j < e → (a.results j).error = none) →
      ∃ b', t.AfterSets arrays b' (e + 1) ∧ ∀ m, d < m →
        DoWhile.run (OdbcHandleStmt.batchBody a) (· = .stillExecuting) m b =
          some (.ok (setCode (a.results e) n e, b')) := by
  induction d generalizing i with
  | zero =>
    intro b hd hb _
    obtain rfl : i = e := by omega
    obtain ⟨b', hbody, hb'⟩ := hb.step ht hs he
    have hends : setCode (a.results i) n i ≠ .stillExecuting := by
      unfold setCode
      rcases hlast with herr | hn
      · simp [herr]
      · rw [if_pos hn]
        split <;> simp
    refine ⟨b', hb', fun m hm => ?_⟩
    obtain ⟨m, rfl⟩ : ∃ k, m = k + 1 := ⟨m - 1, by omega⟩
    rw [DoWhile.run, hbody]
    dsimp only
    rw [if_neg (by simpa using hends)]
  | succ d ih =>
    intro b hd hb hok
    obtain ⟨b₁, hbody, hb₁⟩ := hb.step ht hs (by omega : i < n)
    obtain ⟨b', hb', hrun⟩ := ih (by omega) hb₁ fun j hj => hok j (by omega)
    refine ⟨b', hb', fun m hm => ?_⟩
    obtain ⟨m, rfl⟩ : ∃ k, m = k + 1 := ⟨m - 1, by omega⟩
    have hcode : setCode (a.results i) n i = .stillExecuting := by
      rw [setCode, hok i le_rfl (by omega), if_neg (by simp), if_neg (by omega)]
    rw [DoWhile.run, hbody, hcode]
    exact hrun m (by omega)

/-- Before the run of a set the counter of processed sets says that the set is done, and so do
the statuses, of this set and of the ones before it. -/
structure ReportsSets (t : Talk ρ EngineValue) (log : List (ExecEvent EngineValue)) (i : ℕ) :
    Prop where
  processed : t.desc.ipd.header.rowsProcessedPtr ≠ 0 → lastProcessed log = some (i + 1)
  status : t.desc.ipd.header.arrayStatusPtr ≠ 0 → ∀ j ≤ i, lastStatus log j = some .success

/-- The statement was run once for each of the first `k` sets, with the values of the set. -/
structure ExecutesArrays (t : Talk ρ EngineValue) (arrays : List FixedArray) (k : ℕ)
    (log : List (ExecEvent EngineValue)) : Prop where
  runs : runValues log = (List.range k).map (setValues arrays)
  reports : ∀ i < k, ∃ pre post, log = pre ++ .run (setValues arrays i) :: post ∧
    runValues pre = (List.range i).map (setValues arrays) ∧ t.ReportsSets pre i

/-- The log of a set up to its run. -/
def beforeRun (t : Talk ρ EngineValue) (i : ℕ) : List (ExecEvent EngineValue) :=
  { t.h with paramDesc.paramsetIdx := i }.resetLog ++
    OdbcHandleStmt.readLog { t.desc with paramsetIdx := i }

theorem setLog_eq : t.setLog arrays i = t.beforeRun i ++ [.run (setValues arrays i)] := rfl

/-- What is logged before the run of a set. -/
theorem mem_beforeRun {e : ExecEvent EngineValue} (he : e ∈ t.beforeRun i) :
    e = .rowsFetchedReset ∨ e = .readSet i ∨ e = .paramStatus i .success ∨
      e = .processed ((i + 1) % 2 ^ 64) := by
  unfold beforeRun OdbcHandleStmt.resetLog OdbcHandleStmt.readLog at he
  simp only [List.mem_append, List.mem_cons] at he
  rcases he with he | rfl | he | he
  · split at he
    · exact .inl (List.mem_singleton.mp he)
    · cases he
  · exact .inr (.inl rfl)
  · split at he
    · exact .inr (.inr (.inl (List.eq_of_mem_replicate he)))
    · cases he
  · split at he
    · exact .inr (.inr (.inr (List.mem_singleton.mp he)))
    · cases he

theorem runValues_beforeRun : runValues (t.beforeRun i) = [] := by
  rw [runValues, List.filterMap_eq_nil_iff]
  intro e he
  rcases mem_beforeRun he with rfl | rfl | rfl | rfl <;> rfl

theorem runValues_arraysLog (k : ℕ) :
    runValues (t.arraysLog arrays k) = (List.range k).map (setValues arrays) := by
  induction k with
  | zero => rfl
  | succ k ih =>
    have hset : runValues (t.setLog arrays k) = [setValues arrays k] := by
      rw [setLog_eq, runValues, List.filterMap_append, ← runValues, runValues_beforeRun]
      rfl
    rw [arraysLog, List.range_succ, List.flatMap_append, List.flatMap_singleton, runValues,
      List.filterMap_append, ← runValues, ← runValues, hset, ← arraysLog, ih, List.map_append]
    rfl

/-- A set all of whose statuses are a success has that as its last one. -/
theorem lastStatus_eq_success {log : List (ExecEvent EngineValue)} {set : ℕ}
    (hmem : .paramStatus set .success ∈ log)
    (hall : ∀ ret, .paramStatus set ret ∈ log → ret = .success) :
    lastStatus log set = some .success := by
  have hne : log.filterMap (statusOf set) ≠ [] :=
    List.ne_nil_of_mem (List.mem_filterMap.mpr ⟨_, hmem, if_pos rfl⟩)
  unfold lastStatus
  rw [List.getLast?_eq_some_getLast hne]
  have hlast := List.getLast_mem hne
  generalize (log.filterMap (statusOf set)).getLast hne = last at hlast
  obtain ⟨e, he, hstatus⟩ := List.mem_filterMap.mp hlast
  unfold statusOf at hstatus
  split at hstatus
  · next set' ret =>
    split at hstatus
    · next hset =>
      rw [← hstatus, hall ret (hset ▸ he)]
    · cases hstatus
  · cases hstatus

theorem mem_arraysLog {e : ExecEvent EngineValue} {k : ℕ} :
    e ∈ t.arraysLog arrays k ↔ ∃ i < k, e ∈ t.setLog arrays i := by
  simp [arraysLog, List.mem_flatMap]

/-- The log up to the run of the set `i` reports the sets that are done. -/
theorem reportsSets (ht : t.BoundArrays arrays n) (hi : i < n) :
    t.ReportsSets (t.arraysLog arrays i ++ t.beforeRun i) i where
  processed hptr := by
    have hmod : (i + 1) % 2 ^ 64 = i + 1 := Nat.mod_eq_of_lt (by have := ht.lt; omega)
    unfold beforeRun OdbcHandleStmt.readLog lastProcessed
    rw [if_pos hptr, hmod]
    simp
  status hptr j hj := by
    have hpos : 0 < t.desc.ipd.records.length := by
      rw [ht.records]
      exact List.length_pos_iff.mpr ht.nonempty
    have hown : ∀ j, .paramStatus j .success ∈ t.beforeRun j := fun j => by
      unfold beforeRun OdbcHandleStmt.readLog
      rw [if_pos hptr]
      simp [hpos.ne']
    refine lastStatus_eq_success ?_ fun ret hret => ?_
    · rcases Nat.lt_or_eq_of_le hj with hlt | rfl
      · refine List.mem_append_left _ (mem_arraysLog.mpr ⟨j, hlt, ?_⟩)
        exact List.mem_append_left _ (hown j)
      · exact List.mem_append_right _ (hown j)
    · rcases List.mem_append.mp hret with hret | hret
      · obtain ⟨j', -, hret⟩ := mem_arraysLog.mp hret
        rw [setLog_eq] at hret
        rcases List.mem_append.mp hret with hret | hret
        · rcases mem_beforeRun hret with h | h | h | h <;> cases h
          rfl
        · cases List.mem_singleton.mp hret
      · rcases mem_beforeRun hret with h | h | h | h <;> cases h
        rfl

theorem executesArrays_arraysLog (ht : t.BoundArrays arrays n) {k : ℕ} (hk : k ≤ n) :
    t.ExecutesArrays arrays k (t.arraysLog arrays k) where
  runs := runValues_arraysLog k
  reports i hi := by
    refine ⟨t.arraysLog arrays i ++ t.beforeRun i,
      (List.range' (i + 1) (k - (i + 1))).flatMap (t.setLog arrays), ?_, ?_,
      reportsSets ht (by omega)⟩
    · have hsplit : List.range k = List.range i ++ i :: List.range' (i + 1) (k - (i + 1)) := by
        rw [← List.range'_succ, List.range_eq_range', List.range_eq_range',
          show k - (i + 1) + 1 = k - i by omega]
        have happend : List.range' 0 i ++ List.range' (0 + i) (k - i) = _ := List.range'_append_1
        rw [Nat.zero_add, show i + (k - i) = k by omega] at happend
        exact happend.symm
      rw [arraysLog, hsplit, List.flatMap_append, List.flatMap_cons, setLog_eq, arraysLog]
      simp
    · rw [runValues, List.filterMap_append, ← runValues, ← runValues, runValues_arraysLog,
        runValues_beforeRun, List.append_nil]

end Talk

/-- A batch over arrays of fixed length runs its statement once for each set, with the values of
the set, as long as the engine succeeds. -/
theorem batch_executes_arrays {t : Talk ρ EngineValue} {arrays : List FixedArray} {n : ℕ}
    {a : ExecAnswers ρ EngineValue} (ht : t.BoundArrays arrays n) (hs : a.source = t.source) :
    ((∀ i < n, (a.results i).error = none) → ∃ h' log, t.ExecutesArrays arrays n log ∧
      ∀ m, n ≤ m → t.h.batchExecuteStmt m a = some (OdbcHandleStmt.batchFinish .success h' log)) ∧
    ∀ e < n, (∀ i < e, (a.results i).error = none) → (a.results e).error.isSome →
      ∃ h' log, t.ExecutesArrays arrays (e + 1) log ∧
        ∀ m, e < m → t.h.batchExecuteStmt m a = some (.ok ⟨.error, h', log⟩) := by
  have hfirst : t.AfterSets arrays ⟨t.h, 0, []⟩ 0 := ⟨rfl, rfl, ht.first, rfl, rfl, rfl, rfl⟩
  constructor
  · intro hok
    have hpos := ht.pos
    obtain ⟨b', hb', hrun⟩ := Talk.AfterSets.run ht hs (by omega : n - 1 < n) (.inr (by omega))
      (n - 1) (Nat.zero_add _) hfirst fun j _ hj => hok j (by omega)
    rw [show n - 1 + 1 = n by omega] at hb'
    have hcode : Talk.setCode (a.results (n - 1)) n (n - 1) = .success := by
      rw [Talk.setCode, hok _ (by omega), if_neg (by simp), if_pos (by omega)]
    refine ⟨b'.h, b'.log, ?_, fun m hm => ?_⟩
    · rw [hb'.log]
      exact Talk.executesArrays_arraysLog ht le_rfl
    · rw [OdbcHandleStmt.batchExecuteStmt, hrun m (by omega), hcode]
      rfl
  · intro e he hok herr
    obtain ⟨b', hb', hrun⟩ := Talk.AfterSets.run ht hs he (.inl herr) e (Nat.zero_add e) hfirst
      fun j _ hj => hok j hj
    have hcode : Talk.setCode (a.results e) n e = .error := if_pos herr
    refine ⟨b'.h, b'.log, ?_, fun m hm => ?_⟩
    · rw [hb'.log]
      exact Talk.executesArrays_arraysLog ht he
    · rw [OdbcHandleStmt.batchExecuteStmt, hrun m hm, hcode]
      rfl

/-- An array of the integers 7 and null. -/
def sevenAndNull : FixedArray where
  type := .int .integer true
  cType := 4
  cType_mem := by decide
  element _ := ⟨7, by decide⟩
  isNull i := i = 1

/-- A statement with one integer parameter over two sets. -/
def twoSets : Talk ℕ EngineValue where
  h :=
    let h := ((OdbcHandleStmt.blank : OdbcHandleStmt ℕ EngineValue).bindParameterStmt
      ⟨1, 1, 4, 4, 10, 0, 100, 4, 200⟩).2
    { h with
      stmt := some ⟨none, 1, 1, true, true⟩
      paramDesc.apd.header.arraySize := 2
      paramDesc.ipd.header.rowsProcessedPtr := 300 }
  mem :=
    { indicators := fun a => if a = 208 then sqlNullData else 4
      app := fun _ => [7, 0, 0, 0, 9, 9, 9, 9]
      pool := []
      buffers := fun _ => none
      rowsProcessed := 0 }

theorem boundArrays_twoSets : twoSets.BoundArrays [sevenAndNull] 2 where
  nonempty := by simp
  records := rfl
  holds p a ha := by
    obtain ⟨rfl, rfl⟩ : p = 0 ∧ a = sevenAndNull := by
      cases p with
      | zero => exact ⟨rfl, (Option.some.inj ha).symm⟩
      | succ p => cases ha
    exact ⟨_, _, rfl, rfl, rfl, rfl, by decide, by decide, by decide, by decide, by decide⟩
  arraySize := rfl
  pos := by omega
  lt := by omega
  first := rfl
  prepared := rfl

theorem batch_executes_twoSets :
    (∃ h' log, twoSets.ExecutesArrays [sevenAndNull] 2 log ∧
      ∀ m, 2 ≤ m → twoSets.h.batchExecuteStmt m ⟨twoSets.source, fun _ => queryResult 1 []⟩ =
        some (OdbcHandleStmt.batchFinish .success h' log)) ∧
    setValues [sevenAndNull] 0 = [.integer 7] ∧ setValues [sevenAndNull] 1 = [.null] :=
  ⟨(batch_executes_arrays boundArrays_twoSets rfl).1 fun _ _ => rfl, rfl, rfl⟩

end HaybarnOdbc
