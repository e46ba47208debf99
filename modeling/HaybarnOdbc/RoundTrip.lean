import HaybarnOdbc.Integers
import HaybarnOdbc.Temporal

/-!
# From a parameter to a column

An element of a parameter array becomes a value of the engine in `SetValue`, and a value of the
engine becomes bytes of the application again in `GetDataStmtResult`. The two were written apart :
one reads structs by their offsets and counts days with `Date::FromDate`, the other searches the
year with `Date::Convert` and fills structs field by field. With one layout on both sides the bytes
come back (`bound_then_fetched`), but for the fraction of a timestamp, which is kept to
microseconds.
-/

namespace HaybarnOdbc

open MachineInt Bytes Calendar

variable {ρ V : Type}

/-! ## Reading a value -/

/-- The C types that have the layout. -/
def FixedType.targets : FixedType → List CType
  | .int .tinyint true => [.tinyint, .stinyint]
  | .int .tinyint false => [.utinyint]
  | .int .smallint true => [.short, .sshort]
  | .int .smallint false => [.ushort]
  | .int .integer true => [.long, .slong]
  | .int .integer false => [.ulong]
  | .int .bigint true => [.sbigint]
  | .int .bigint false => [.ubigint]
  | .float => [.float]
  | .double => [.double]
  | .date => [.typeDate]
  | .time => [.typeTime]
  | .timestamp => [.typeTimestamp]

/-- The integers among the values. -/
def EngineValue.toInteger : EngineValue → Option IntegerValue
  | .tinyint n => IntegerValue.ofNative ⟨.tinyint, true⟩ n
  | .utinyint n => IntegerValue.ofNative ⟨.tinyint, false⟩ n
  | .smallint n => IntegerValue.ofNative ⟨.smallint, true⟩ n
  | .usmallint n => IntegerValue.ofNative ⟨.smallint, false⟩ n
  | .integer n => IntegerValue.ofNative ⟨.integer, true⟩ n
  | .uinteger n => IntegerValue.ofNative ⟨.integer, false⟩ n
  | .bigint n => IntegerValue.ofNative ⟨.bigint, true⟩ n
  | .ubigint n => IntegerValue.ofNative ⟨.bigint, false⟩ n
  | _ => none

/-- The dates, times and timestamps among the values. -/
def EngineValue.toTemporal : EngineValue → Option TemporalValue
  | .date days => if h : i32.Fits days then some (.date days h) else none
  | .time micros =>
    if h : 0 ≤ micros ∧ micros ≤ microsPerDay then some (.time micros h.1 h.2) else none
  | .timestamp micros => if h : i64.Fits micros then some (.timestamp .us micros h) else none
  | _ => none

/-- The bytes of a `SQL_DATE_STRUCT` that was filled. -/
def SqlDateStruct.bytes (s : SqlDateStruct) : List UInt8 :=
  ofInt 2 s.year ++ ofInt 2 s.month ++ ofInt 2 s.day

/-- The bytes of a `SQL_TIME_STRUCT` that was filled. -/
def SqlTimeStruct.bytes (s : SqlTimeStruct) : List UInt8 :=
  ofInt 2 s.hour ++ ofInt 2 s.minute ++ ofInt 2 s.second

/-- The bytes that are stored of a struct. -/
def TemporalStruct.bytes : TemporalStruct → List UInt8
  | .date s => s.bytes
  | .time s => s.bytes
  | .timestamp s => s.date.bytes ++ s.time.bytes ++ ofInt 4 s.fraction

/-- How reading a value as a C type of fixed size ends. -/
inductive FixedResult
  | stored (bytes : List UInt8) (records : List DiagRecord)
  | error (records : List DiagRecord)
  | thrown (msg : String)
  deriving DecidableEq, Repr

/-- The result of a conversion to a struct, in bytes. -/
def TemporalResult.fixed : TemporalResult → FixedResult
  | .stored s records => .stored s.bytes records
  | .error records => .error records
  | .thrown msg => .thrown msg

/-- The result of a conversion to a number, in bytes. -/
def FixedResult.ofInternal : Except CastFailure (List UInt8) → FixedResult
  | .ok bytes => .stored bytes []
  | .error (.reported records) => .error records
  | .error (.thrown msg) => .thrown msg

/-- The casts of the engine that are not followed here : the ones of texts, and all others between
types that differ. -/
structure OtherCasts where
  text : TextCasts
  cast : CType → EngineValue → FixedResult

/-- The branches of `GetDataStmtResult` for dates and times. -/
def getTemporalValue (C : OtherCasts) (junk : ℤ) (t : CType) (target : TemporalTarget)
    (v : EngineValue) : FixedResult :=
  match v.toTemporal with
  | some value => (getTemporalData C.text junk (.value value) target).fixed
  | none => C.cast t v

/-- The branches of `GetDataStmtResult` for a C type of fixed size. A floating point number is
copied as it is to its own type. -/
def getFixedData (C : OtherCasts) (junk : ℤ) (t : CType) (v : EngineValue) : FixedResult :=
  match t with
  | .float =>
    match v with
    | .float bits => .stored (ofNat 4 bits) []
    | v => C.cast t v
  | .double =>
    match v with
    | .double bits => .stored (ofNat 8 bits) []
    | v => C.cast t v
  | .typeDate => getTemporalValue C junk t .date v
  | .typeTime => getTemporalValue C junk t .time v
  | .typeTimestamp => getTemporalValue C junk t .timestamp v
  | t =>
    match t.native with
    | none => C.cast t v
    | some dst =>
      match v.toInteger with
      | none => C.cast t v
      | some n =>
        .ofInternal (getInternalValue dst.width.bytes ((n.castAs dst).bind (getValueOf dst)))

/-! ## Elements that come back -/

/-- A point in time in whole microseconds. -/
def TimestampElement.inMicros (t : TimestampElement) : TimestampElement where
  date := t.date
  time := t.time
  fraction := t.fraction / 1000 * 1000
  fraction_lt := (Nat.div_mul_le_self _ _).trans_lt t.fraction_lt

/-- The element that comes back. -/
def FixedType.kept : (type : FixedType) → type.Element → type.Element
  | .int _ _, e => e
  | .float, e => e
  | .double, e => e
  | .date, e => e
  | .time, e => e
  | .timestamp, e => TimestampElement.inMicros e

theorem toInteger_value {w : IntWidth} {signed : Bool} {n : ℤ} (h : (w.type signed).Fits n) :
    (w.value signed n).toInteger = some (.native ⟨w, signed⟩ n h) := by
  cases w <;> cases signed <;> exact dif_pos h

theorem native_of_mem_targets {w : IntWidth} {signed : Bool} {t : CType}
    (ht : t ∈ (FixedType.int w signed).targets) : t.native = some ⟨w, signed⟩ := by
  cases w <;> cases signed <;> simp only [FixedType.targets, List.mem_cons, List.not_mem_nil,
    or_false] at ht
  all_goals rcases ht with rfl | rfl <;> rfl

theorem ofInt_natCast {k n : ℕ} (h : n < 256 ^ k) : ofInt k n = ofNat k n := by
  have hmod : (n : ℤ) % 256 ^ k = n :=
    Int.emod_eq_of_lt (Int.natCast_nonneg n) (by exact_mod_cast h)
  rw [ofInt, hmod, Int.toNat_natCast]

section Kept

variable {C : OtherCasts} {junk : ℤ}

theorem getFixedData_native {t : CType} {dst : Native} {v : EngineValue} {n : IntegerValue}
    (ht : t.native = some dst) (hv : v.toInteger = some n) :
    getFixedData C junk t v =
      .ofInternal (getInternalValue dst.width.bytes ((n.castAs dst).bind (getValueOf dst))) := by
  cases t <;> simp only [CType.native, Option.some.injEq, reduceCtorEq] at ht <;> subst ht <;>
    simp only [getFixedData, CType.native, hv]

theorem getFixedData_int {w : IntWidth} {signed : Bool} {n : ℤ} {t : CType}
    (h : (w.type signed).Fits n) (ht : t ∈ (FixedType.int w signed).targets) :
    getFixedData C junk t (w.value signed n) = .stored (ofInt w.bytes n) [] := by
  have hfits : (Native.mk w signed).range.Fits
      (IntegerValue.native ⟨w, signed⟩ n h).number := h
  rw [getFixedData_native (native_of_mem_targets ht) (toInteger_value h), IntegerValue.castAs_eq,
    if_pos hfits, Except.bind, getValueOf_of_fits hfits]
  rfl

/-! ### Dates and times -/

theorem dateStruct_days (d : DateElement) :
    dateStruct d.days = ⟨d.date.year, d.date.month, d.date.day⟩ := by
  obtain ⟨e, he, hx⟩ := EngineDate.convert_spec d.days
  have hnumber : e.number = d.date.number := by
    rw [he, DateElement.days]
    omega
  obtain rfl := Date.eq_of_number_eq hnumber
  have hmonth := d.date.month_le
  have hday := d.date.day_le.trans (daysInMonth_le d.date.year d.date.month)
  have hpos := d.date.day_pos
  unfold dateStruct
  rw [hx]
  dsimp only
  rw [IntType.wrap_of_fits (by decide) d.fits,
    IntType.wrap_of_fits (by decide) (fits_u16.mpr (by omega)),
    IntType.wrap_of_fits (by decide) (fits_u16.mpr (by omega))]

theorem bytes_dateStruct (d : DateElement) : (dateStruct d.days).bytes = d.encode := by
  have hmonth := d.date.month_le
  rw [dateStruct_days, SqlDateStruct.bytes, DateElement.encode, ofInt_natCast (by omega)]

theorem timeStruct_micros (t : TimeElement) {micros : ℤ} (h0 : 0 ≤ micros) (h1 : micros < 1000000) :
    timeStruct (t.micros + micros) = ⟨t.hour, t.minute, t.second⟩ := by
  have hbounds := t.micros_bounds
  have := t.hour_lt
  have := t.minute_lt
  have := t.second_lt
  have hhour : (t.micros + micros) / microsPerHour = t.hour := by
    simp only [TimeElement.micros, microsPerHour]
    omega
  have hminute : (t.micros + micros) % microsPerHour / microsPerMinute = t.minute := by
    simp only [TimeElement.micros, microsPerHour, microsPerMinute]
    omega
  have hsecond : (t.micros + micros) % microsPerMinute / microsPerSec = t.second := by
    simp only [TimeElement.micros, microsPerMinute, microsPerSec]
    omega
  have hle : t.micros + micros ≤ microsPerDay := by
    simp only [TimeElement.micros, microsPerDay]
    omega
  rw [timeStruct_eq (by omega) hle, hhour, hminute, hsecond]

theorem bytes_timeStruct (t : TimeElement) {micros : ℤ} (h0 : 0 ≤ micros) (h1 : micros < 1000000) :
    (timeStruct (t.micros + micros)).bytes = t.encode := by
  have := t.hour_lt
  have := t.minute_lt
  have := t.second_lt
  rw [timeStruct_micros t h0 h1, SqlTimeStruct.bytes, TimeElement.encode, ofInt_natCast (by omega),
    ofInt_natCast (by omega), ofInt_natCast (by omega)]

theorem getFixedData_date (d : DateElement) :
    getFixedData C junk .typeDate (.date d.days) = .stored d.encode [] := by
  have hbounds := d.days_bounds
  have hfits : i32.Fits d.days := fits_i32.mpr (by omega)
  have hvalue : (EngineValue.date d.days).toTemporal = some (.date d.days hfits) := dif_pos hfits
  rw [getFixedData, getTemporalValue, hvalue, ← bytes_dateStruct]
  rfl

theorem getFixedData_time (t : TimeElement) :
    getFixedData C junk .typeTime (.time t.micros) = .stored t.encode [] := by
  have hbounds := t.micros_bounds
  have hday : microsPerDay = 86400000000 := rfl
  have hfits : 0 ≤ t.micros ∧ t.micros ≤ microsPerDay := by omega
  have hvalue : (EngineValue.time t.micros).toTemporal =
      some (.time t.micros hfits.1 hfits.2) := dif_pos hfits
  have hbytes := bytes_timeStruct t (Int.le_refl 0) (by decide)
  rw [add_zero] at hbytes
  rw [getFixedData, getTemporalValue, hvalue, ← hbytes]
  rfl

/-- The days and the time of the day of a timestamp are found again, and its microseconds. -/
theorem getFixedData_timestamp (t : TimestampElement) :
    getFixedData C junk .typeTimestamp (.timestamp t.micros) = .stored t.inMicros.encode [] := by
  have hdate := t.date.days_bounds
  have htime := t.time.micros_bounds
  have hfraction := t.fraction_lt
  have hday : microsPerDay = 86400000000 := rfl
  have hmicros : t.micros = t.date.days * 86400000000 +
      (t.time.micros + (t.fraction / 1000 : ℕ)) := by
    unfold TimestampElement.micros
    omega
  have hsec : t.time.micros % 1000000 = 0 := by
    unfold TimeElement.micros
    omega
  have hfits : i64.Fits t.micros := fits_i64.mpr (by omega)
  have hfinite : EngineTimestamp.IsFinite t.micros := by
    unfold EngineTimestamp.IsFinite EngineTimestamp.infinity
    omega
  have hquot : t.micros / microsPerDay = t.date.days := by
    rw [hday]
    omega
  have hrest : t.micros % microsPerDay = t.time.micros + (t.fraction / 1000 : ℕ) := by
    rw [hday]
    omega
  have hnanos : t.micros % microsPerSec * 1000 = (t.fraction / 1000 * 1000 : ℕ) := by
    simp only [microsPerSec]
    omega
  have hvalue : (EngineValue.timestamp t.micros).toTemporal =
      some (.timestamp .us t.micros hfits) := dif_pos hfits
  have hbytes : ofInt 4 ((t.fraction / 1000 * 1000 : ℕ) : ℤ) = ofNat 4 (t.fraction / 1000 * 1000) :=
    ofInt_natCast (by omega)
  rw [getFixedData, getTemporalValue, hvalue]
  change (storeTimestamp t.micros).fixed = _
  rw [storeTimestamp_of_finite hfits hfinite, hquot, hrest, hnanos]
  change FixedResult.stored ((dateStruct t.date.days).bytes ++
    (timeStruct (t.time.micros + (t.fraction / 1000 : ℕ))).bytes ++ ofInt 4 _) [] = _
  rw [bytes_dateStruct, bytes_timeStruct _ (by omega) (by omega), hbytes]
  rfl

end Kept

/-- A value of the engine is read as the element that it was made of. -/
theorem getFixedData_value (C : OtherCasts) (junk : ℤ) (type : FixedType) {t : CType}
    (ht : t ∈ type.targets) (e : type.Element) :
    getFixedData C junk t (type.value e) = .stored (type.encode (type.kept e)) [] := by
  cases type with
  | int w signed => exact getFixedData_int e.property ht
  | float =>
    obtain rfl := List.mem_singleton.1 ht
    rfl
  | double =>
    obtain rfl := List.mem_singleton.1 ht
    rfl
  | date =>
    obtain rfl := List.mem_singleton.1 ht
    exact getFixedData_date e
  | time =>
    obtain rfl := List.mem_singleton.1 ht
    exact getFixedData_time e
  | timestamp =>
    obtain rfl := List.mem_singleton.1 ht
    exact getFixedData_timestamp e

/-- What is lost of an element is nothing that its value has. -/
theorem value_kept (type : FixedType) (e : type.Element) :
    type.value (type.kept e) = type.value e := by
  cases type with
  | timestamp =>
    refine congrArg EngineValue.timestamp ?_
    change TimestampElement.micros (TimestampElement.inMicros e) = TimestampElement.micros e
    simp only [TimestampElement.micros, TimestampElement.inMicros]
    rw [Nat.mul_div_cancel _ (by decide)]
  | _ => rfl

theorem kept_eq {type : FixedType} (h : type ≠ .timestamp) (e : type.Element) :
    type.kept e = e := by
  cases type with
  | timestamp => exact absurd rfl h
  | _ => rfl

/-- How an element of a parameter array comes back : `v` is what it is bound as, and reading `v`
stores the bytes of the element, up to the fraction of a timestamp. Bound again they are `v`. -/
structure ComesBack (C : OtherCasts) (junk : ℤ) (t : Talk ρ V) (p i : ℕ) (a : FixedArray)
    (apdRecord ipdRecord : DescRecord) (v : EngineValue) : Prop where
  bound : t.boundParam p i = some (.value v, t.mem)
  read : ∀ target ∈ a.type.targets, getFixedData C junk target v =
    .stored (a.type.encode (a.type.kept (a.element i))) []
  same : a.type ≠ .timestamp → Buffer.load (t.mem.block apdRecord.dataPtr) (i * a.type.size)
    a.type.size = some (a.type.encode (a.type.kept (a.element i)))
  again : fixedValue a.type.sqlType a.cType ipdRecord.precision ipdRecord.scale
    (a.type.encode (a.type.kept (a.element i))) = .ok v

/-- Every element of a parameter array that is not null comes back. -/
theorem bound_then_fetched (C : OtherCasts) (junk : ℤ) {t : Talk ρ V} {p n i : ℕ} {a : FixedArray}
    {apdRecord ipdRecord : DescRecord} (h : t.HoldsArray p a n apdRecord ipdRecord) (hi : i < n)
    (hnull : a.isNull i = false) : ∃ v, ComesBack C junk t p i a apdRecord ipdRecord v := by
  refine ⟨a.type.value (a.element i), ?_, fun target ht => getFixedData_value C junk a.type ht _,
    fun hne => ?_, ?_⟩
  · rw [h.boundParam_eq hi, FixedArray.valueAt, if_neg (by rw [hnull]; exact Bool.false_ne_true)]
  · rw [kept_eq hne]
    exact h.element i hi hnull
  · rw [a.type.fixedValue_encode a.cType_mem, value_kept]

/-- A leap day, with nanoseconds. -/
def leapDay : TimestampElement where
  date := ⟨⟨2024, 2, 29, by decide, by decide, by decide, by decide⟩, by decide⟩
  time := ⟨12, 34, 56, by decide, by decide, by decide⟩
  fraction := 123456789
  fraction_lt := by decide

/-- An array of one leap day. -/
def leapDays : FixedArray where
  type := .timestamp
  cType := 93
  cType_mem := by decide
  element _ := leapDay
  isNull _ := false

/-- A statement with one timestamp parameter. -/
def boundLeapDay : Talk ℕ EngineValue where
  h :=
    { ((OdbcHandleStmt.blank : OdbcHandleStmt ℕ EngineValue).bindParameterStmt
        ⟨1, 1, 93, 93, 26, 6, 100, 16, 200⟩).2 with
      stmt := some ⟨none, 1, 1, true, true⟩ }
  mem :=
    { indicators := fun _ => 16
      app := fun _ => leapDay.encode
      pool := []
      buffers := fun _ => none
      rowsProcessed := 0 }

/-- An engine without other casts. -/
def noOtherCasts : OtherCasts where
  text := ⟨fun _ => none, fun _ => none, fun _ => none, fun _ _ => ""⟩
  cast _ _ := .error []

theorem bound_then_fetched_leapDay : ∃ apdRecord ipdRecord v,
    boundLeapDay.HoldsArray 0 leapDays 1 apdRecord ipdRecord ∧
      ComesBack noOtherCasts 0 boundLeapDay 0 0 leapDays apdRecord ipdRecord v := by
  obtain ⟨apdRecord, ipdRecord, h⟩ : ∃ apdRecord ipdRecord,
      boundLeapDay.HoldsArray 0 leapDays 1 apdRecord ipdRecord :=
    ⟨_, _, rfl, rfl, rfl, rfl, by decide, by decide, by decide, by decide, by decide⟩
  obtain ⟨v, hv⟩ := bound_then_fetched noOtherCasts 0 h (by decide : 0 < 1) rfl
  exact ⟨apdRecord, ipdRecord, v, h, hv⟩

end HaybarnOdbc
