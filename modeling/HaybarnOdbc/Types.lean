import Mathlib.Algebra.Order.Ring.Int
import Mathlib.Tactic.Common
import Mathlib.Data.Nat.Notation
import Mathlib.Data.Int.Notation

/-!
# Codes, C types and values

The enumerations of the ODBC interface that the driver reads, the two tables of C types
(`CType.pointerSizeOf`, the stride of a column-wise array, and `CType.storedSize`, the
number of bytes `GetDataStmtResult` stores), and what the driver uses of an engine value.

Pointers of the application are addresses, with `0` the null pointer, so that pointer
arithmetic on a null pointer is what it is in the source. A dereference the source makes
without a check is a `Fault` of the model, and so is an exception that nothing in the driver
catches.
-/

namespace HaybarnOdbc

/-- `SQLRETURN`. `paramError` is `SQL_PARAM_ERROR`, `fetchBeforeStart` is
`OdbcFetch::RETURN_FETCH_BEFORE_START`. -/
inductive SqlReturn
  | success
  | successWithInfo
  | stillExecuting
  | paramError
  | needData
  | noData
  | error
  | invalidHandle
  | fetchBeforeStart
  deriving DecidableEq, Repr

/-- `SQL_SUCCEEDED`. -/
def SqlReturn.succeeded : SqlReturn → Bool
  | .success => true
  | .successWithInfo => true
  | _ => false

/-- What ends a call without a code : the null or stale pointer it follows (`nullData` is
the `data` of a statement that failed to prepare), an index outside a vector, or an
exception that leaves the driver. -/
inductive Fault
  | nullStmt
  | nullData
  | nullRes
  | nullChunk
  | freedChunk
  | outOfRange
  | thrown (msg : String)
  deriving DecidableEq, Repr

/-- The call is left by an exception. -/
def Fault.IsThrown : Fault → Prop
  | .thrown _ => True
  | _ => False

/-- `SQL_ATTR_CURSOR_TYPE`. -/
inductive CursorType
  | forwardOnly
  | keysetDriven
  | dynamic
  | static
  deriving DecidableEq, Repr

/-- The orientation of a fetch; `other` stands for the ones without a case of their own. -/
inductive FetchOrientation
  | next
  | prior
  | first
  | absolute
  | other
  deriving DecidableEq, Repr

/-- The SQLSTATEs of the modelled diagnostics. -/
inductive SqlState
  | st01000
  | st01004
  | st01S09
  | st07006
  | st07009
  | st22007
  | st24000
  | st42000
  | stHY000
  | stHY004
  | stHY090
  | stHYC00
  | stIM003
  deriving DecidableEq, Repr

/-- A diagnostic record, before its text is formatted. -/
structure DiagRecord where
  component : String
  msg : String
  sqlState : SqlState
  deriving DecidableEq, Repr

/-- An address of the application, `0` for a null pointer. -/
abbrev Addr := ℤ

/-! ## C types -/

/-- The interval C types. -/
inductive IntervalType
  | year
  | month
  | day
  | hour
  | minute
  | second
  | yearToMonth
  | dayToHour
  | dayToMinute
  | dayToSecond
  | hourToMinute
  | hourToSecond
  | minuteToSecond
  deriving DecidableEq, Repr

/-- The C type of a bound column or of a `SQLGetData` target; `other` is a code the
driver has no name for. -/
inductive CType
  | short
  | sshort
  | ushort
  | long
  | slong
  | ulong
  | float
  | double
  | bit
  | tinyint
  | stinyint
  | utinyint
  | sbigint
  | ubigint
  | wchar
  | binary
  | char
  | numeric
  | typeDate
  | typeTime
  | typeTimestamp
  | interval (q : IntervalType)
  | default
  | other (code : ℤ)
  deriving DecidableEq, Repr

/-- `OdbcUtils::IsCharType` : besides `SQL_CHAR`, `SQL_WCHAR` and `SQL_BINARY`, the codes
of `SQL_VARCHAR`, `SQL_WVARCHAR`, `SQL_LONGVARCHAR` and `SQL_WLONGVARCHAR`. -/
def CType.isCharType : CType → Bool
  | .char => true
  | .wchar => true
  | .binary => true
  | .other code => code = 12 ∨ code = -9 ∨ code = -1 ∨ code = -10
  | _ => false

/-- `ApiInfo::PointerSizeOf`, with `-1` for a type of variable length. -/
def CType.pointerSizeOf : CType → ℤ
  | .sshort => 2
  | .ushort => 2
  | .long => 4
  | .slong => 4
  | .ulong => 4
  | .float => 4
  | .double => 8
  | .stinyint => 1
  | .utinyint => 1
  | .sbigint => 8
  | .ubigint => 8
  | .numeric => 19
  | .typeDate => 6
  | .typeTime => 6
  | .typeTimestamp => 16
  | .interval _ => 28
  | .bit => 1
  | _ => -1

/-- The bytes `GetDataStmtResult` stores for a C type of fixed size, and reports through
the length pointer. -/
def CType.storedSize : CType → Option ℕ
  | .short => some 2
  | .sshort => some 2
  | .ushort => some 2
  | .long => some 4
  | .slong => some 4
  | .ulong => some 4
  | .float => some 4
  | .double => some 8
  | .bit => some 1
  | .tinyint => some 1
  | .stinyint => some 1
  | .utinyint => some 1
  | .sbigint => some 8
  | .ubigint => some 8
  | .numeric => some 19
  | .typeDate => some 6
  | .typeTime => some 6
  | .typeTimestamp => some 16
  | .interval _ => some 28
  | _ => none

/-! ## Values of the engine -/

/-- The logical types `resolve_default_type` tells apart. -/
inductive LogicalTypeId
  | boolean
  | tinyint
  | utinyint
  | smallint
  | usmallint
  | integer
  | uinteger
  | bigint
  | ubigint
  | float
  | double
  | other
  deriving DecidableEq, Repr

/-- `resolve_default_type` : the C type `SQL_C_DEFAULT` stands for. -/
def resolveDefaultType (typeId : LogicalTypeId) (maxLen : ℤ) : CType :=
  match typeId with
  | .boolean => .bit
  | .tinyint => .tinyint
  | .utinyint => .utinyint
  | .smallint => if maxLen < 2 then .tinyint else .short
  | .usmallint => if maxLen < 2 then .utinyint else .ushort
  | .integer => if maxLen < 2 then .tinyint else if maxLen < 4 then .short else .long
  | .uinteger => if maxLen < 2 then .utinyint else if maxLen < 4 then .ushort else .ulong
  | .bigint =>
    if maxLen < 2 then .tinyint else if maxLen < 4 then .short
    else if maxLen < 8 then .long else .sbigint
  | .ubigint =>
    if maxLen < 2 then .utinyint else if maxLen < 4 then .ushort
    else if maxLen < 8 then .ulong else .ubigint
  | .float => .float
  | .double => if maxLen < 8 then .float else .double
  | .other => .char

/-- How a conversion to a C type of fixed size fails : with diagnostics, or by an exception
of the engine that the driver does not catch. -/
inductive CastFailure
  | reported (records : List DiagRecord)
  | thrown (msg : String)
  deriving DecidableEq, Repr

/-- What the driver uses of the engine's rows and values. The conversions to a text or a
BLOB can throw : a text with a backslash that begins no escape is no BLOB. -/
structure Engine (ρ V : Type) where
  /-- `DataChunk::GetValue` within a row. -/
  getValue : ρ → ℕ → V
  isNull : V → Bool
  typeId : V → LogicalTypeId
  /-- A `TIMESTAMP_TZ` moved by the offset of the operating system; any other value. -/
  atUtcOffset : V → V
  /-- The bytes of a C type of fixed size, or how the conversion failed. -/
  castAs : CType → V → Except CastFailure (List UInt8)
  /-- The text of the value in UTF-8, or the message of an exception. -/
  charBytes : V → Except String (List UInt8)
  /-- The text of the value in UTF-16, as bytes. -/
  wcharBytes : V → Except String (List UInt8)
  /-- The value as a BLOB. -/
  binaryBytes : V → Except String (List UInt8)
  castAs_length : ∀ {t v bs k}, castAs t v = .ok bs → t.storedSize = some k → bs.length = k

/-- The engine of results with one column of numbers below 256 : a number is its byte,
followed by zeros up to the size of the C type. -/
def byteEngine : Engine ℕ ℕ where
  getValue row _ := row
  isNull _ := false
  typeId _ := .utinyint
  atUtcOffset := id
  castAs t v := .ok ((UInt8.ofNat v :: List.replicate 27 0).take (t.storedSize.getD 1))
  charBytes v := .ok [UInt8.ofNat v]
  wcharBytes v := .ok [UInt8.ofNat v, 0]
  binaryBytes v := .ok [UInt8.ofNat v]
  castAs_length {t v bs k} h hk := by
    simp only [hk, Option.getD_some, Except.ok.injEq] at h
    subst h
    cases t <;> simp_all [CType.storedSize] <;> omega

end HaybarnOdbc
