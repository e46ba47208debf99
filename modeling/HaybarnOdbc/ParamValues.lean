import HaybarnOdbc.DataAtExec
import HaybarnOdbc.Dates
import HaybarnOdbc.Lib.Bytes

/-!
# The values of parameters

The last step of `SetValue` : what the bytes of an element of a parameter array become as a
value of the engine, by the SQL type of the parameter. The C type matters only where it
has no sign. A value the engine refuses is an exception that nothing catches.
-/

namespace HaybarnOdbc

open MachineInt Bytes

variable {ρ V : Type}

/-! ## Codes -/

/-- `SQL_TINYINT`. -/
def sqlTinyint : ℤ := -6

/-- `SQL_SMALLINT`. -/
def sqlSmallint : ℤ := 5

/-- `SQL_INTEGER`. -/
def sqlInteger : ℤ := 4

/-- `SQL_BIGINT`. -/
def sqlBigint : ℤ := -5

/-- `SQL_FLOAT`. -/
def sqlFloat : ℤ := 6

/-- `SQL_DOUBLE`. -/
def sqlDouble : ℤ := 8

/-- `SQL_NUMERIC`. -/
def sqlNumeric : ℤ := 2

/-- `SQL_TYPE_DATE`. -/
def sqlTypeDate : ℤ := 91

/-- `SQL_TYPE_TIME`. -/
def sqlTypeTime : ℤ := 92

/-- `SQL_TYPE_TIMESTAMP`. -/
def sqlTypeTimestamp : ℤ := 93

/-- `SQL_C_UTINYINT`. -/
def sqlCUtinyint : ℤ := -28

/-- `SQL_C_USHORT`. -/
def sqlCUshort : ℤ := -17

/-- `SQL_C_ULONG`. -/
def sqlCUlong : ℤ := -18

/-- `SQL_C_UBIGINT`. -/
def sqlCUbigint : ℤ := -27

/-! ## Values of the engine -/

/-- A value that is passed to an execution. Floating point numbers are their bits, a date is
its day, a timestamp and a time are microseconds. -/
inductive EngineValue
  | null
  | varchar (bytes : List UInt8)
  | blob (bytes : List UInt8)
  | tinyint (n : ℤ)
  | utinyint (n : ℤ)
  | smallint (n : ℤ)
  | usmallint (n : ℤ)
  | integer (n : ℤ)
  | uinteger (n : ℤ)
  | bigint (n : ℤ)
  | ubigint (n : ℤ)
  | float (bits : ℕ)
  | double (bits : ℕ)
  | decimal (unscaled : ℤ) (width scale : ℤ)
  | date (days : ℤ)
  | time (micros : ℤ)
  | timestamp (micros : ℤ)
  deriving DecidableEq, Repr

/-- `Decimal::MAX_WIDTH_INT64`. -/
def maxWidthInt64 : ℤ := 18

/-- The signed integers of 128 bits. -/
def i128 : IntType := ⟨true, 128⟩

/-- `NumericCast` to the integers that hold a decimal of a width below 19. -/
def decimalStorage (width : ℤ) : IntType :=
  if width ≤ 4 then i16 else if width ≤ 9 then i32 else i64

/-- `Value::DECIMAL` of a number of 64 bits. -/
def decimalOfInt64 (value width scale : ℤ) : Except String EngineValue :=
  if (decimalStorage width).Fits value then .ok (.decimal value width scale)
  else .error "Information loss on integer cast"

/-- The bytes of a field of a struct. -/
def field (bytes : List UInt8) (offset size : ℕ) : List UInt8 := (bytes.drop offset).take size

/-- The branch of `SQL_NUMERIC`, for a `SQL_NUMERIC_STRUCT` (precision, scale, sign, and
16 bytes of `val`) : up to 18 digits only 8 bytes of `val` are read. A sign of `0` is
negative. -/
def numericValue (precision scale : ℤ) (bytes : List UInt8) : Except String EngineValue :=
  let negative : Bool := toNat (field bytes 2 1) = 0
  if precision ≤ maxWidthInt64 then
    let value := toInt (field bytes 3 8)
    decimalOfInt64 (if negative then i64.wrap (-value) else value) precision scale
  else
    let value := toInt (field bytes 3 16)
    .ok (.decimal (if negative then i128.wrap (-value) else value) precision scale)

/-- The branch of `SQL_TYPE_DATE`, for a `SQL_DATE_STRUCT`. -/
def dateValue (bytes : List UInt8) : Except String EngineValue :=
  (EngineDate.fromDate (toInt (field bytes 0 2)) (toNat (field bytes 2 2))
    (toNat (field bytes 4 2))).map .date

/-- The branch of `SQL_TYPE_TIME`, for a `SQL_TIME_STRUCT`. -/
def timeValue (bytes : List UInt8) : EngineValue :=
  .time (EngineTime.fromTime (toNat (field bytes 0 2)) (toNat (field bytes 2 2))
    (toNat (field bytes 4 2)) 0)

/-- The branch of `SQL_TYPE_TIMESTAMP`, for a `SQL_TIMESTAMP_STRUCT`. -/
def timestampValue (bytes : List UInt8) : Except String EngineValue := do
  let date ← EngineDate.fromDate (toInt (field bytes 0 2)) (toNat (field bytes 2 2))
    (toNat (field bytes 4 2))
  let time := EngineTime.fromTime (toNat (field bytes 6 2)) (toNat (field bytes 8 2))
    (toNat (field bytes 10 2)) (toNat (field bytes 12 4) / 1000 : ℕ)
  return .timestamp (← EngineTimestamp.fromDatetime date time)

/-- The branches of `SetValue` for the SQL types of fixed size. -/
def fixedValue (sqlType cType precision scale : ℤ) (bytes : List UInt8) :
    Except String EngineValue :=
  if sqlType = sqlTinyint then
    .ok (if cType = sqlCUtinyint then .utinyint (toNat bytes) else .tinyint (toInt bytes))
  else if sqlType = sqlSmallint then
    .ok (if cType = sqlCUshort then .usmallint (toNat bytes) else .smallint (toInt bytes))
  else if sqlType = sqlInteger then
    .ok (if cType = sqlCUlong then .uinteger (toNat bytes) else .integer (toInt bytes))
  else if sqlType = sqlBigint then
    .ok (if cType = sqlCUbigint then .ubigint (toNat bytes) else .bigint (toInt bytes))
  else if sqlType = sqlFloat then .ok (.float (toNat bytes))
  else if sqlType = sqlDouble then .ok (.double (toNat bytes))
  else if sqlType = sqlNumeric then numericValue precision scale bytes
  else if sqlType = sqlTypeTimestamp then timestampValue bytes
  else if sqlType = sqlTypeDate then dateValue bytes
  else .ok (timeValue bytes)

/-- The value of the engine of what `SetValue` loaded. A text is one in UTF-8, for which
`Value(std::string)` does not throw. -/
def ParamValue.toEngine (ipdRecord : DescRecord) : ParamValue → Except String EngineValue
  | .null => .ok .null
  | .text bytes => .ok (.varchar bytes)
  | .blob bytes => .ok (.blob bytes)
  | .fixed sqlType cType bytes =>
    fixedValue sqlType cType ipdRecord.precision ipdRecord.scale bytes

/-- What `SetValue` ends in : a value, a parameter whose data comes at execution time, an
error code, or an exception. -/
inductive BoundParam
  | value (v : EngineValue)
  | needData
  | failed (ret : SqlReturn)
  | thrown (msg : String)
  deriving DecidableEq, Repr

/-- `SetValue` of a record for a parameter set, up to the value of the engine. -/
def Talk.boundParam (t : Talk ρ V) (recIdx valIdx : ℕ) : Option (BoundParam × Memory) :=
  match t.setValue recIdx valIdx, t.desc.ipd.records[recIdx]? with
  | some (.value v, mem), some ipdRecord =>
    match v.toEngine ipdRecord with
    | .ok v => some (.value v, mem)
    | .error msg => some (.thrown msg, mem)
  | some (.needData, mem), some _ => some (.needData, mem)
  | some (.failed ret, mem), some _ => some (.failed ret, mem)
  | _, _ => none

/-- The outcomes of `SetValue` as an execution takes them. An exception, like data that comes at
execution time, ends the execution before the statement is run. -/
def Talk.source (t : Talk ρ V) : ParamSource EngineValue := fun recIdx valIdx =>
  match t.boundParam recIdx valIdx with
  | some (.value v, _) => .value v
  | some (.failed ret, _) => .failed ret
  | _ => .needData

/-! ## Parameters that are read -/

/-- A parameter whose element of a parameter set is read : it has a data pointer and an
indicator, which says neither that the value is null nor that it comes at execution. -/
structure Talk.Reads (t : Talk ρ V) (recIdx valIdx : ℕ) (apdRecord ipdRecord : DescRecord) :
    Prop where
  apd : t.desc.apd.records[recIdx]? = some apdRecord
  ipd : t.desc.ipd.records[recIdx]? = some ipdRecord
  dataPtr : apdRecord.dataPtr ≠ 0
  indicatorPtr : apdRecord.indicatorPtr ≠ 0
  present : t.mem.indicators (apdRecord.indicatorAddr valIdx) ∉
    [sqlNullData, sqlDataAtExec, sqlLenDataAtExec ipdRecord.length]

/-- A value that neither the C type nor the SQL type makes a text or a BLOB. -/
structure IsFixed (apdRecord ipdRecord : DescRecord) (size : ℕ) : Prop where
  size_eq : fixedSize ipdRecord.type = some size
  notText : apdRecord.type ≠ 1 ∧ apdRecord.type ≠ -8
  valid : ipdRecord.type = sqlNumeric →
    validateNumeric ipdRecord.precision ipdRecord.scale = true

theorem not_target_of_fixedSize {sqlType : ℤ} {size : ℕ} (h : fixedSize sqlType = some size) :
    isBinaryTarget sqlType = false ∧ isCharTarget sqlType = false ∧
      isWcharTarget sqlType = false := by
  simp only [isBinaryTarget, isCharTarget, isWcharTarget, decide_eq_false_iff_not]
  refine ⟨?_, ?_, ?_⟩ <;> rintro (rfl | rfl | rfl) <;> cases h

namespace Talk

variable {t : Talk ρ V} {recIdx valIdx : ℕ} {apdRecord ipdRecord : DescRecord}

theorem Reads.setValue_eq (h : t.Reads recIdx valIdx apdRecord ipdRecord) :
    t.setValue recIdx valIdx =
      (t.loadValue apdRecord ipdRecord valIdx
        (t.mem.indicators (apdRecord.indicatorAddr valIdx))).map fun (value, ind) =>
          (value, t.mem.setIndicator (apdRecord.indicatorAddr valIdx) ind) := by
  have hpresent := h.present
  simp only [List.mem_cons, List.not_mem_nil, or_false, not_or] at hpresent
  unfold setValue
  rw [h.apd, h.ipd]
  dsimp only
  rw [if_neg fun hnull => h.dataPtr hnull.1, if_neg (not_or.mpr ⟨h.dataPtr, h.indicatorPtr⟩),
    if_neg hpresent.1, if_neg (not_or.mpr hpresent.2)]

/-- An element of fixed size is loaded from its place in the array. -/
theorem loadValue_fixed {size : ℕ} {ind : ℤ} (hfixed : IsFixed apdRecord ipdRecord size) :
    t.loadValue apdRecord ipdRecord valIdx ind =
      (Buffer.load (t.mem.block apdRecord.dataPtr) (valIdx * size) size).map fun bytes =>
        (.value (.fixed ipdRecord.type apdRecord.type bytes), ind) := by
  obtain ⟨hbinary, hchar, hwchar⟩ := not_target_of_fixedSize hfixed.size_eq
  have hvalid : ¬(ipdRecord.type = 2 ∧
      validateNumeric ipdRecord.precision ipdRecord.scale = false) := fun ⟨htype, hinvalid⟩ =>
    Bool.noConfusion ((hfixed.valid htype).symm.trans hinvalid)
  unfold loadValue
  dsimp only
  rw [if_neg fun h => hfixed.notText.1 h.2, if_neg fun h => hfixed.notText.2 h.2,
    if_neg (by simp [hchar]), if_neg (by simp [hwchar]), if_neg (by simp [hbinary]),
    if_neg hvalid, hfixed.size_eq]

theorem setIndicator_self (m : Memory) (a : Addr) : m.setIndicator a (m.indicators a) = m := by
  rw [Memory.setIndicator, Function.update_eq_self]

/-- Without its element a parameter of fixed size has no value. -/
theorem Reads.boundParam_eq_none {size : ℕ} (h : t.Reads recIdx valIdx apdRecord ipdRecord)
    (hfixed : IsFixed apdRecord ipdRecord size)
    (hload : Buffer.load (t.mem.block apdRecord.dataPtr) (valIdx * size) size = none) :
    t.boundParam recIdx valIdx = none := by
  have hset : t.setValue recIdx valIdx = none := by
    rw [h.setValue_eq, loadValue_fixed hfixed, hload]
    rfl
  rw [boundParam, hset]

/-- The value of a parameter of fixed size, of which nothing but its element is read. -/
theorem Reads.boundParam_fixed {size : ℕ} {bytes : List UInt8}
    (h : t.Reads recIdx valIdx apdRecord ipdRecord) (hfixed : IsFixed apdRecord ipdRecord size)
    (hload : Buffer.load (t.mem.block apdRecord.dataPtr) (valIdx * size) size = some bytes) :
    t.boundParam recIdx valIdx =
      some (match fixedValue ipdRecord.type apdRecord.type ipdRecord.precision ipdRecord.scale
          bytes with
        | .ok v => .value v
        | .error msg => .thrown msg, t.mem) := by
  have hset : t.setValue recIdx valIdx =
      some (.value (.fixed ipdRecord.type apdRecord.type bytes), t.mem) := by
    rw [h.setValue_eq, loadValue_fixed hfixed, hload]
    simp only [Option.map_some, setIndicator_self]
  unfold boundParam
  rw [hset, h.ipd]
  dsimp only [ParamValue.toEngine]
  split <;> rfl

end Talk

end HaybarnOdbc
