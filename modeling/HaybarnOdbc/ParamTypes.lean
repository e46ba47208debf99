import HaybarnOdbc.Lib.Binary
import HaybarnOdbc.Numerics
import HaybarnOdbc.ParamBuffers

/-!
# Numeric parameters by their two types

An application says in which C type a number lies in its buffer and which SQL type the
parameter has. `SetValue` reads the bytes by the SQL type : its size is the step from one
parameter set to the next one, and the C type is asked for nothing but the sign. It takes a
parameter without an indicator pointer for a null.

The number that is bound is therefore the number in the buffer only where the two types have
one layout (`bindsNumber_iff`).
-/

namespace HaybarnOdbc

open MachineInt Bytes BinaryFormat

variable {ρ V : Type}

/-! ## Layouts -/

/-- How a number lies in memory. -/
inductive NumberLayout
  | int (signed : Bool) (size : ℕ)
  | binary (f : BinaryFormat) (size : ℕ)
  | struct
  deriving DecidableEq

/-- The bytes of a number. -/
def NumberLayout.size : NumberLayout → ℕ
  | .int _ size => size
  | .binary _ size => size
  | .struct => 19

/-- The number of bytes in a layout. The scale of a `SQL_NUMERIC_STRUCT` is in its second
byte, its sign in the third one. -/
def NumberLayout.number : NumberLayout → List UInt8 → Number
  | .int signed _, bytes => .finite (if signed then toInt bytes else toNat bytes : ℤ)
  | .binary f _, bytes => f.number (toNat bytes)
  | .struct, bytes =>
    .finite ((if toNat (field bytes 2 1) = 0 then -1 else 1) * toNat (field bytes 3 16) *
      10 ^ (-toInt (field bytes 1 1)))

/-- The numeric C types. -/
inductive NumericCType
  | tinyint
  | stinyint
  | utinyint
  | short
  | sshort
  | ushort
  | long
  | slong
  | ulong
  | sbigint
  | ubigint
  | float
  | double
  | numeric
  deriving DecidableEq, Repr

namespace NumericCType

/-- The number of the C type. -/
def code : NumericCType → ℤ
  | .tinyint => -6
  | .stinyint => -26
  | .utinyint => sqlCUtinyint
  | .short => 5
  | .sshort => -15
  | .ushort => sqlCUshort
  | .long => 4
  | .slong => -16
  | .ulong => sqlCUlong
  | .sbigint => -25
  | .ubigint => sqlCUbigint
  | .float => 7
  | .double => 8
  | .numeric => sqlCNumeric

/-- How the buffer holds a number of the C type. -/
def layout : NumericCType → NumberLayout
  | .tinyint => .int true 1
  | .stinyint => .int true 1
  | .utinyint => .int false 1
  | .short => .int true 2
  | .sshort => .int true 2
  | .ushort => .int false 2
  | .long => .int true 4
  | .slong => .int true 4
  | .ulong => .int false 4
  | .sbigint => .int true 8
  | .ubigint => .int false 8
  | .float => .binary binary32 4
  | .double => .binary binary64 8
  | .numeric => .struct

end NumericCType

/-- The numeric SQL types that `SetValue` has a branch for. -/
inductive NumericSqlType
  | tinyint
  | smallint
  | integer
  | bigint
  | float
  | double
  | numeric
  deriving DecidableEq, Repr

namespace NumericSqlType

/-- The number of the SQL type. -/
def code : NumericSqlType → ℤ
  | .tinyint => sqlTinyint
  | .smallint => sqlSmallint
  | .integer => sqlInteger
  | .bigint => sqlBigint
  | .float => sqlFloat
  | .double => sqlDouble
  | .numeric => sqlNumeric

/-- The layout that `SetValue` reads. -/
def layout (s : NumericSqlType) (c : NumericCType) : NumberLayout :=
  match s with
  | .tinyint => .int (c ≠ .utinyint) 1
  | .smallint => .int (c ≠ .ushort) 2
  | .integer => .int (c ≠ .ulong) 4
  | .bigint => .int (c ≠ .ubigint) 8
  | .float => .binary binary32 4
  | .double => .binary binary64 8
  | .numeric => .struct

end NumericSqlType

/-- The number of a value of the engine. -/
def EngineValue.number : EngineValue → Option Number
  | .tinyint n => some (.finite n)
  | .utinyint n => some (.finite n)
  | .smallint n => some (.finite n)
  | .usmallint n => some (.finite n)
  | .integer n => some (.finite n)
  | .uinteger n => some (.finite n)
  | .bigint n => some (.finite n)
  | .ubigint n => some (.finite n)
  | .float bits => some (binary32.number bits)
  | .double bits => some (binary64.number bits)
  | .decimal unscaled _ scale => some (.finite (unscaled * 10 ^ (-scale)))
  | _ => none

/-- The values of a SQL type, of a decimal with a precision and a scale. -/
def NumericSqlType.Holds (s : NumericSqlType) (precision scale : ℤ) (v : EngineValue) : Prop :=
  match s, v with
  | .tinyint, .tinyint n => i8.Fits n
  | .tinyint, .utinyint n => u8.Fits n
  | .smallint, .smallint n => i16.Fits n
  | .smallint, .usmallint n => u16.Fits n
  | .integer, .integer n => i32.Fits n
  | .integer, .uinteger n => u32.Fits n
  | .bigint, .bigint n => i64.Fits n
  | .bigint, .ubigint n => 0 ≤ n ∧ n < 2 ^ 64
  | .float, .float bits => bits < 2 ^ 32
  | .double, .double bits => bits < 2 ^ 64
  | .numeric, .decimal unscaled w s =>
    w = precision ∧ s = scale ∧ unscaled.natAbs < 10 ^ precision.toNat
  | _, _ => False

/-- A numeric parameter with a buffer, as it is bound. -/
structure NumericParam where
  args : BindParameterArgs
  cType : NumericCType
  sqlType : NumericSqlType
  valueType : args.valueType = cType.code
  parameterType : args.parameterType = sqlType.code
  accepted : sqlType = .numeric →
    validateNumeric (i16.wrap args.columnSize) args.decimalDigits = true
  input : args.inputOutputType = 1
  numbered : 1 ≤ args.parameterNumber
  buffer : args.parameterValuePtr ≠ 0

namespace NumericParam

variable (p : NumericParam)

/-- The SQL type has the number among its values. -/
def Holds (n : Number) : Prop :=
  ∃ v, p.sqlType.Holds (i16.wrap p.args.columnSize) p.args.decimalDigits v ∧ v.number = some n

/-- A statement that the parameter is bound to, whose buffer has known bytes in an element,
and whose indicator, if there is one, says that the value is there. -/
structure BoundElement (t : Talk ρ V) (i : ℕ) (element : List UInt8) : Prop where
  filled : ∃ apdRecord ipdRecord, p.args.Filled apdRecord ipdRecord ∧
    t.desc.apd.records[p.args.parameterNumber - 1]? = some apdRecord ∧
    t.desc.ipd.records[p.args.parameterNumber - 1]? = some ipdRecord
  present : p.args.strLenOrIndPtr ≠ 0 → t.mem.indicators (p.args.strLenOrIndPtr + 8 * i) ∉
    [sqlNullData, sqlDataAtExec, sqlLenDataAtExec p.args.columnSize]
  length : element.length = p.cType.layout.size
  block : Buffer.load (t.mem.block p.args.parameterValuePtr) (i * p.cType.layout.size)
    p.cType.layout.size = some element

/-- In every statement that the parameter is bound to, the value that is bound for a
parameter set is the number that lies at its element, whatever else is in the buffer. A
number that the SQL type does not have is left to a conversion. -/
def BindsNumber (ρ V : Type) : Prop :=
  ∀ (t : Talk ρ V) (i : ℕ) (element : List UInt8), p.BoundElement t i element →
    p.Holds (p.cType.layout.number element) →
    ∃ v, t.boundParam (p.args.parameterNumber - 1) i = some (.value v, t.mem) ∧
      v.number = some (p.cType.layout.number element)

/-! ## What is read -/

theorem code_eq_iff (c : NumericCType) :
    (c.code = sqlCUtinyint ↔ c = .utinyint) ∧ (c.code = sqlCUshort ↔ c = .ushort) ∧
      (c.code = sqlCUlong ↔ c = .ulong) ∧ (c.code = sqlCUbigint ↔ c = .ubigint) := by
  cases c <;> decide

/-- The value of an element has the number that the SQL type reads. -/
theorem fixedValue_number (s : NumericSqlType) (c : NumericCType) (hs : s ≠ .numeric)
    (precision scale : ℤ) (bytes : List UInt8) :
    ∃ v, fixedValue s.code c.code precision scale bytes = .ok v ∧
      v.number = some ((s.layout c).number bytes) := by
  obtain ⟨h1, h2, h4, h8⟩ := code_eq_iff c
  cases s with
  | tinyint =>
    by_cases h : c = .utinyint
    · exact ⟨.utinyint (toNat bytes), congrArg Except.ok (if_pos (h1.mpr h)), by
        simp [EngineValue.number, NumericSqlType.layout, NumberLayout.number, h]⟩
    · exact ⟨.tinyint (toInt bytes), congrArg Except.ok (if_neg fun hc => h (h1.mp hc)), by
        simp [EngineValue.number, NumericSqlType.layout, NumberLayout.number, h]⟩
  | smallint =>
    by_cases h : c = .ushort
    · exact ⟨.usmallint (toNat bytes), congrArg Except.ok (if_pos (h2.mpr h)), by
        simp [EngineValue.number, NumericSqlType.layout, NumberLayout.number, h]⟩
    · exact ⟨.smallint (toInt bytes), congrArg Except.ok (if_neg fun hc => h (h2.mp hc)), by
        simp [EngineValue.number, NumericSqlType.layout, NumberLayout.number, h]⟩
  | integer =>
    by_cases h : c = .ulong
    · exact ⟨.uinteger (toNat bytes), congrArg Except.ok (if_pos (h4.mpr h)), by
        simp [EngineValue.number, NumericSqlType.layout, NumberLayout.number, h]⟩
    · exact ⟨.integer (toInt bytes), congrArg Except.ok (if_neg fun hc => h (h4.mp hc)), by
        simp [EngineValue.number, NumericSqlType.layout, NumberLayout.number, h]⟩
  | bigint =>
    by_cases h : c = .ubigint
    · exact ⟨.ubigint (toNat bytes), congrArg Except.ok (if_pos (h8.mpr h)), by
        simp [EngineValue.number, NumericSqlType.layout, NumberLayout.number, h]⟩
    · exact ⟨.bigint (toInt bytes), congrArg Except.ok (if_neg fun hc => h (h8.mp hc)), by
        simp [EngineValue.number, NumericSqlType.layout, NumberLayout.number, h]⟩
  | float => exact ⟨.float (toNat bytes), rfl, rfl⟩
  | double => exact ⟨.double (toNat bytes), rfl, rfl⟩
  | numeric => exact absurd rfl hs

variable {p} {t : Talk ρ V} {i : ℕ} {element : List UInt8}

theorem verboseType_code (c : NumericCType) (s : NumericSqlType) :
    verboseType c.code = c.code ∧ verboseType s.code = s.code := by
  constructor
  · cases c <;> decide
  · cases s <;> decide

/-- The records of a parameter with an indicator, whose element is read by the SQL type. -/
theorem BoundElement.reads (h : p.BoundElement t i element) (hind : p.args.strLenOrIndPtr ≠ 0) :
    ∃ apdRecord ipdRecord, t.Reads (p.args.parameterNumber - 1) i apdRecord ipdRecord ∧
      IsFixed apdRecord ipdRecord (p.sqlType.layout p.cType).size ∧
      apdRecord.dataPtr = p.args.parameterValuePtr ∧ apdRecord.type = p.cType.code ∧
      ipdRecord.type = p.sqlType.code ∧ ipdRecord.precision = i16.wrap p.args.columnSize ∧
      ipdRecord.scale = p.args.decimalDigits := by
  obtain ⟨apdRecord, ipdRecord, hfilled, hapd, hipd⟩ := h.filled
  have hcode := verboseType_code p.cType p.sqlType
  have hvalue : apdRecord.type = p.cType.code := by
    rw [hfilled.valueType, p.valueType, hcode.1]
  have hparam : ipdRecord.type = p.sqlType.code := by
    rw [hfilled.parameterType, p.parameterType, hcode.2]
  refine ⟨apdRecord, ipdRecord, ⟨hapd, hipd, ?_, ?_, ?_⟩, ⟨?_, ?_, ?_⟩, hfilled.parameterValuePtr,
    hvalue, hparam, hfilled.precision, hfilled.decimalDigits⟩
  · rw [hfilled.parameterValuePtr]
    exact p.buffer
  · rw [hfilled.strLenOrIndPtr]
    exact hind
  · rw [DescRecord.indicatorAddr, hfilled.strLenOrIndPtr, hfilled.columnSize]
    exact h.present hind
  · rw [hparam]
    cases p.sqlType <;> rfl
  · rw [hvalue]
    cases p.cType <;> decide
  · intro hnumeric
    rw [hparam] at hnumeric
    rw [hfilled.precision, hfilled.decimalDigits]
    refine p.accepted ?_
    revert hnumeric
    cases p.sqlType <;> decide

/-- The value of the element that the SQL type reads. -/
theorem BoundElement.boundParam_eq (h : p.BoundElement t i element)
    (hind : p.args.strLenOrIndPtr ≠ 0) {bytes : List UInt8} {v : EngineValue}
    (hload : Buffer.load (t.mem.block p.args.parameterValuePtr)
      (i * (p.sqlType.layout p.cType).size) (p.sqlType.layout p.cType).size = some bytes)
    (hv : fixedValue p.sqlType.code p.cType.code (i16.wrap p.args.columnSize)
      p.args.decimalDigits bytes = .ok v) :
    t.boundParam (p.args.parameterNumber - 1) i = some (.value v, t.mem) := by
  obtain ⟨apdRecord, ipdRecord, hreads, hfixed, hptr, hc, hs, hprecision, hscale⟩ := h.reads hind
  rw [← hptr] at hload
  rw [hreads.boundParam_fixed hfixed hload, hc, hs, hprecision, hscale, hv]

/-- Without an indicator pointer the value is null. -/
theorem BoundElement.boundParam_null (h : p.BoundElement t i element)
    (hind : p.args.strLenOrIndPtr = 0) :
    t.boundParam (p.args.parameterNumber - 1) i = some (.value .null, t.mem) := by
  obtain ⟨apdRecord, ipdRecord, hfilled, hapd, hipd⟩ := h.filled
  have hdata : apdRecord.dataPtr ≠ 0 := by
    rw [hfilled.parameterValuePtr]
    exact p.buffer
  have hset : t.setValue (p.args.parameterNumber - 1) i = some (.value .null, t.mem) := by
    unfold Talk.setValue
    rw [hapd, hipd]
    dsimp only
    rw [if_neg fun h => hdata h.1, if_pos (.inr (hfilled.strLenOrIndPtr.trans hind))]
  rw [Talk.boundParam, hset, hipd]
  rfl

/-! ## Statements with one known element -/

variable (p)

/-- A statement that the parameter is bound to, whose buffer holds an element behind `i` unknown
ones. -/
def statement (ρ V : Type) (i : ℕ) (element : List UInt8) : Talk ρ V where
  h := ((OdbcHandleStmt.blank : OdbcHandleStmt ρ V).bindParameterStmt p.args).2
  mem :=
    { indicators := fun _ => 0
      app := fun _ => []
      pool := []
      buffers := fun _ =>
        some (List.replicate (i * p.cType.layout.size) none ++ element.map some)
      rowsProcessed := 0 }

theorem boundElement_statement (i : ℕ) (hlen : element.length = p.cType.layout.size) :
    p.BoundElement (p.statement ρ V i element) i element where
  filled := (OdbcHandleStmt.blank : OdbcHandleStmt ρ V).filled_bindParameterStmt p.input p.numbered
  present _ := by
    show (0 : ℤ) ∉ _
    simp only [List.mem_cons, List.not_mem_nil, or_false, sqlNullData, sqlDataAtExec,
      sqlLenDataAtExec]
    omega
  length := hlen
  block := by
    show Buffer.load (List.replicate (i * p.cType.layout.size) none ++ element.map some) _ _ = _
    refine Buffer.load_eq_some_iff.mpr ⟨hlen, ?_⟩
    rw [List.drop_left' List.length_replicate, ← hlen]
    exact List.take_of_length_le (by rw [List.length_map])

/-- Steps and elements of another size than that of the C type reach unknown bytes. -/
theorem load_statement_one {size : ℕ} (hpos : 0 < size) (hne : size ≠ p.cType.layout.size)
    (hlen : element.length = p.cType.layout.size) (ptr : Addr) :
    Buffer.load ((p.statement ρ V 1 element).mem.block ptr) (1 * size) size = none := by
  show Buffer.load (List.replicate (1 * p.cType.layout.size) none ++ element.map some) _ _ = none
  rw [one_mul, one_mul]
  by_contra hsome
  obtain ⟨xs, hxs⟩ := Option.ne_none_iff_exists'.mp hsome
  obtain ⟨hxslen, heq⟩ := Buffer.load_eq_some_iff.mp hxs
  have hlength := congrArg List.length heq
  rw [List.length_take, List.length_drop, List.length_append, List.length_replicate,
    List.length_map, List.length_map, hlen, hxslen] at hlength
  have hfirst := congrArg (·[0]?) heq
  simp only [List.getElem?_take_of_lt hpos, List.getElem?_drop, Nat.add_zero] at hfirst
  rw [List.getElem?_append_left (by rw [List.length_replicate]; omega),
    List.getElem?_replicate_of_lt (by omega), List.getElem?_map] at hfirst
  cases h0 : xs[0]? with
  | none =>
    rw [List.getElem?_eq_none_iff] at h0
    omega
  | some x =>
    rw [h0] at hfirst
    cases Option.some.inj hfirst

/-- The bytes of zero in every layout. -/
def zeroElement : List UInt8 := List.replicate p.cType.layout.size 0

theorem number_zeroElement : p.cType.layout.number p.zeroElement = .finite 0 := by
  unfold zeroElement
  cases p.cType <;> decide +kernel

theorem holds_zero : p.Holds (.finite 0) := by
  unfold Holds
  cases p.sqlType with
  | tinyint => exact ⟨.tinyint 0, by show i8.Fits 0; decide, rfl⟩
  | smallint => exact ⟨.smallint 0, by show i16.Fits 0; decide, rfl⟩
  | integer => exact ⟨.integer 0, by show i32.Fits 0; decide, rfl⟩
  | bigint => exact ⟨.bigint 0, by show i64.Fits 0; decide, rfl⟩
  | float => exact ⟨.float 0, by show 0 < 2 ^ 32; decide, by decide +kernel⟩
  | double => exact ⟨.double 0, by show 0 < 2 ^ 64; decide, by decide +kernel⟩
  | numeric =>
    refine ⟨.decimal 0 _ _, ⟨rfl, rfl, Nat.pow_pos (by decide)⟩, ?_⟩
    rw [EngineValue.number, Int.cast_zero, zero_mul]

/-! ## When the number is bound -/

variable {p}

/-- A number of the layout that is read is bound. -/
theorem bindsNumber_of_layout (hind : p.args.strLenOrIndPtr ≠ 0)
    (hlayout : p.sqlType.layout p.cType = p.cType.layout) (hc : p.cType ≠ .numeric) :
    p.BindsNumber ρ V := by
  intro t i element hbound _
  have hs : p.sqlType ≠ .numeric := by
    intro hs
    rw [hs] at hlayout
    revert hlayout hc
    cases p.cType <;> decide
  obtain ⟨v, hv, hnumber⟩ := fixedValue_number p.sqlType p.cType hs (i16.wrap p.args.columnSize)
    p.args.decimalDigits element
  rw [hlayout] at hnumber
  refine ⟨v, hbound.boundParam_eq hind ?_ hv, hnumber⟩
  rw [hlayout]
  exact hbound.block

theorem BindsNumber.indicator (h : p.BindsNumber ρ V) : p.args.strLenOrIndPtr ≠ 0 := by
  intro hind
  have hlen : p.zeroElement.length = p.cType.layout.size := List.length_replicate
  have hbound := p.boundElement_statement (ρ := ρ) (V := V) 0 hlen
  obtain ⟨v, hv, hnumber⟩ := h _ _ _ hbound (by rw [number_zeroElement]; exact p.holds_zero)
  rw [hbound.boundParam_null hind] at hv
  obtain rfl : EngineValue.null = v := by simpa using hv
  cases hnumber

/-- The step from one parameter set to the next one is the size of the C type. -/
theorem BindsNumber.size_eq (h : p.BindsNumber ρ V) :
    (p.sqlType.layout p.cType).size = p.cType.layout.size := by
  by_contra hne
  have hlen : p.zeroElement.length = p.cType.layout.size := List.length_replicate
  have hbound := p.boundElement_statement (ρ := ρ) (V := V) 1 hlen
  obtain ⟨v, hv, -⟩ := h _ _ _ hbound (by rw [number_zeroElement]; exact p.holds_zero)
  obtain ⟨apdRecord, ipdRecord, hreads, hfixed, -⟩ := hbound.reads h.indicator
  have hpos : 0 < (p.sqlType.layout p.cType).size := by
    cases p.sqlType <;> exact Nat.succ_pos _
  rw [hreads.boundParam_eq_none hfixed (p.load_statement_one hpos hne hlen _)] at hv
  cases hv

/-- The two layouts of one size read the same number from an element. -/
theorem BindsNumber.number_eq (h : p.BindsNumber ρ V) (hs : p.sqlType ≠ .numeric)
    {element : List UInt8} (hlen : element.length = p.cType.layout.size)
    (hholds : p.Holds (p.cType.layout.number element)) :
    (p.sqlType.layout p.cType).number element = p.cType.layout.number element := by
  have hbound := p.boundElement_statement (ρ := ρ) (V := V) 0 hlen
  obtain ⟨v, hv, hnumber⟩ := h _ _ _ hbound hholds
  obtain ⟨w, hw, hwnumber⟩ := fixedValue_number p.sqlType p.cType hs
    (i16.wrap p.args.columnSize) p.args.decimalDigits element
  have hload := hbound.block
  rw [← h.size_eq] at hload
  rw [hbound.boundParam_eq h.indicator hload hw] at hv
  obtain rfl : w = v := by simpa using hv
  exact Option.some.inj (hwnumber.symm.trans hnumber)

/-- The bytes of one in the layouts of integers and of floating point numbers. -/
def oneElement (c : NumericCType) : List UInt8 :=
  match c.layout with
  | .int _ size => ofNat size 1
  | .binary f size => ofNat size (f.bias * 2 ^ f.fractionBits)
  | .struct => List.replicate 19 0

theorem holds_one (hs : p.sqlType ≠ .numeric) : p.Holds (.finite 1) := by
  unfold Holds
  cases hsql : p.sqlType with
  | tinyint => exact ⟨.tinyint 1, by show i8.Fits 1; decide, rfl⟩
  | smallint => exact ⟨.smallint 1, by show i16.Fits 1; decide, rfl⟩
  | integer => exact ⟨.integer 1, by show i32.Fits 1; decide, rfl⟩
  | bigint => exact ⟨.bigint 1, by show i64.Fits 1; decide, rfl⟩
  | float => exact ⟨.float 0x3F800000, by show 0x3F800000 < 2 ^ 32; decide, by decide +kernel⟩
  | double =>
    exact ⟨.double 0x3FF0000000000000, by show 0x3FF0000000000000 < 2 ^ 64; decide,
      by decide +kernel⟩
  | numeric => exact absurd hsql hs

/-- An integer and a floating point number of one size write the number one in two ways. -/
theorem oneElement_spec (c : NumericCType) (s : NumericSqlType) (hs : s ≠ .numeric)
    (hsize : (s.layout c).size = c.layout.size) (hne : s.layout c ≠ c.layout) :
    (oneElement c).length = c.layout.size ∧ c.layout.number (oneElement c) = .finite 1 ∧
      (s.layout c).number (oneElement c) ≠ .finite 1 := by
  cases s <;> cases c <;> first
    | exact absurd rfl hs
    | exact absurd hsize (by decide)
    | exact absurd rfl hne
    | exact ⟨by decide +kernel, by decide +kernel, by decide +kernel⟩

/-- Ten, with a scale in the struct. -/
def tenStruct (scale : ℤ) : SqlNumericStruct := ⟨0, scale, 1, ofNat 16 10⟩

theorem number_tenStruct {scale : ℤ} (h0 : 0 ≤ scale) (h38 : scale ≤ 38) :
    NumberLayout.struct.number (tenStruct (scale + 1)).bytes = .finite (10 ^ (-scale)) := by
  have hscale : field (tenStruct (scale + 1)).bytes 1 1 = ofInt 1 (scale + 1) := by
    have hdrop : (tenStruct (scale + 1)).bytes.drop 1 =
        ofInt 1 (scale + 1) ++ (ofInt 1 1 ++ ofNat 16 10) := by
      rw [SqlNumericStruct.bytes, List.append_assoc, List.append_assoc]
      exact List.drop_left' (by simp)
    rw [field, hdrop]
    exact List.take_left' (by simp)
  have hsign : toNat (field (tenStruct (scale + 1)).bytes 2 1) = 1 := by
    rw [SqlNumericStruct.field_sign]
    show toNat (ofInt 1 1) = 1
    decide
  have hval : toNat (field (tenStruct (scale + 1)).bytes 3 16) = 10 := by
    rw [SqlNumericStruct.field_val (length_ofNat _ _)]
    show toNat (ofNat 16 10) = 10
    decide
  have hshift : (10 : ℚ) * 10 ^ (-(scale + 1)) = 10 ^ (-scale) := by
    rw [neg_add, zpow_add₀ (by norm_num), zpow_neg_one, mul_left_comm,
      mul_inv_cancel₀ (by norm_num), mul_one]
  unfold NumberLayout.number
  dsimp only
  rw [hsign, hval, hscale, toInt_ofInt (by omega) (by omega), if_neg (by decide), one_mul]
  exact congrArg Number.finite hshift

/-- The struct is read as ten at the scale of the parameter. -/
theorem numericValue_tenStruct (precision scale scale' : ℤ) :
    numericValue precision scale (tenStruct scale').bytes = .ok (.decimal 10 precision scale) := by
  have hsign : ¬toNat (field (tenStruct scale').bytes 2 1) = 0 := by
    rw [SqlNumericStruct.field_sign]
    show ¬toNat (ofInt 1 1) = 0
    decide
  have hlow : toInt (field (tenStruct scale').bytes 3 8) = 10 := by
    rw [SqlNumericStruct.field_low]
    show toInt ((ofNat 16 10).take 8) = 10
    decide
  have hval : toInt (field (tenStruct scale').bytes 3 16) = 10 := by
    rw [SqlNumericStruct.field_val (length_ofNat _ _)]
    show toInt (ofNat 16 10) = 10
    decide
  have hfits : (decimalStorage precision).Fits 10 := by
    unfold decimalStorage
    split_ifs <;> decide
  unfold numericValue
  dsimp only
  by_cases hp : precision ≤ maxWidthInt64
  · rw [if_pos hp, if_neg (by simpa using hsign), hlow, decimalOfInt64, if_pos hfits]
  · rw [if_neg hp, if_neg (by simpa using hsign), hval]

theorem fixedValue_numeric (cType precision scale : ℤ) (bytes : List UInt8) :
    fixedValue NumericSqlType.numeric.code cType precision scale bytes =
      numericValue precision scale bytes := rfl

/-- A struct is read at the scale of the parameter, not at its own one. -/
theorem not_bindsNumber_struct (hs : p.sqlType = .numeric) (hc : p.cType = .numeric) :
    ¬p.BindsNumber ρ V := by
  intro h
  have hvalid := p.accepted hs
  simp only [validateNumeric, decide_eq_true_eq, not_or] at hvalid
  obtain ⟨hp1, -, hs0, hs38, -⟩ := hvalid
  have hlen : (tenStruct (p.args.decimalDigits + 1)).bytes.length = p.cType.layout.size := by
    rw [hc, SqlNumericStruct.bytes]
    simp [NumericCType.layout, NumberLayout.size, tenStruct]
  have hnumber : p.cType.layout.number (tenStruct (p.args.decimalDigits + 1)).bytes =
      .finite (10 ^ (-p.args.decimalDigits)) := by
    rw [hc]
    exact number_tenStruct (by omega) (by omega)
  have hholds : p.Holds (.finite (10 ^ (-p.args.decimalDigits))) := by
    unfold Holds
    rw [hs]
    refine ⟨.decimal 1 _ _, ⟨rfl, rfl, Nat.one_lt_pow (by omega) (by decide)⟩, ?_⟩
    rw [EngineValue.number, Int.cast_one, one_mul]
  have hbound := p.boundElement_statement (ρ := ρ) (V := V) 0 hlen
  obtain ⟨v, hv, hvnumber⟩ := h _ _ _ hbound (by rwa [hnumber])
  have hload := hbound.block
  rw [← h.size_eq] at hload
  have hvalue : fixedValue p.sqlType.code p.cType.code (i16.wrap p.args.columnSize)
      p.args.decimalDigits (tenStruct (p.args.decimalDigits + 1)).bytes =
      .ok (.decimal 10 (i16.wrap p.args.columnSize) p.args.decimalDigits) := by
    rw [hs, fixedValue_numeric, numericValue_tenStruct]
  rw [hbound.boundParam_eq h.indicator hload hvalue] at hv
  obtain rfl : EngineValue.decimal 10 (i16.wrap p.args.columnSize) p.args.decimalDigits = v := by
    simpa using hv
  rw [hnumber, EngineValue.number] at hvnumber
  have hten : (10 : ℚ) * 10 ^ (-p.args.decimalDigits) = 10 ^ (-p.args.decimalDigits) := by
    simpa using hvnumber
  have hpow : (10 : ℚ) ^ (-p.args.decimalDigits) ≠ 0 := zpow_ne_zero _ (by norm_num)
  rw [mul_eq_right₀ hpow] at hten
  norm_num at hten

/-- The number is bound exactly if an indicator pointer is supplied, and the SQL type reads the
layout of the C type, which is no struct. -/
theorem bindsNumber_iff (p : NumericParam) : p.BindsNumber ρ V ↔
    p.args.strLenOrIndPtr ≠ 0 ∧ p.sqlType.layout p.cType = p.cType.layout ∧
      p.cType ≠ .numeric := by
  constructor
  · intro h
    refine ⟨h.indicator, ?_⟩
    have hsize := h.size_eq
    by_cases hs : p.sqlType = .numeric
    · have hc : p.cType = .numeric := by
        rw [hs] at hsize
        revert hsize
        cases p.cType <;> decide
      exact absurd h (not_bindsNumber_struct hs hc)
    · have hc : p.cType ≠ .numeric := by
        intro hc
        rw [hc] at hsize
        revert hsize hs
        cases p.sqlType <;> decide
      refine ⟨by_contra fun hne => ?_, hc⟩
      obtain ⟨hlen, hone, hother⟩ := oneElement_spec p.cType p.sqlType hs hsize hne
      exact hother ((h.number_eq hs hlen (hone ▸ holds_one hs)).trans hone)
  · rintro ⟨hind, hlayout, hc⟩
    exact bindsNumber_of_layout hind hlayout hc

theorem first_numbered : 1 ≤ 1 := Nat.le_refl 1

/-- A `SQL_C_SLONG` for a `SMALLINT`, with an indicator. -/
def longForSmallint : NumericParam where
  args := ⟨1, 1, -16, 5, 0, 0, 4096, 0, 8192⟩
  cType := .slong
  sqlType := .smallint
  valueType := rfl
  parameterType := rfl
  accepted := nofun
  input := rfl
  numbered := first_numbered
  buffer := by decide

/-- A `SQL_C_SLONG` for an `INTEGER`, without an indicator. -/
def longWithoutIndicator : NumericParam where
  args := ⟨1, 1, -16, 4, 0, 0, 4096, 0, 0⟩
  cType := .slong
  sqlType := .integer
  valueType := rfl
  parameterType := rfl
  accepted := nofun
  input := rfl
  numbered := first_numbered
  buffer := by decide

/-- The second set of the first parameter is read in the middle of its first element, and the
second parameter is null. -/
theorem numbers_not_bound : ¬longForSmallint.BindsNumber Unit Unit ∧
    ¬longWithoutIndicator.BindsNumber Unit Unit :=
  ⟨fun h => absurd h.size_eq (by decide), fun h => h.indicator rfl⟩

end NumericParam

end HaybarnOdbc
