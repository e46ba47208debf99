import HaybarnOdbc.Api
import HaybarnOdbc.Lib.Outcome
import HaybarnOdbc.StringOutput

/-!
# SQLDescribeCol

`DescribeColInternal` is one template over two overloads of `WriteStringCol`, which take the
length of the buffer in bytes. `SQLDescribeColW` gets it in characters and doubles it in a
`SQLSMALLINT`, where a length from 16384 on becomes negative : then, and only then, it does not
do what `SQLDescribeCol` does for a name in ASCII (`describeCol_agree_iff`).
-/

namespace HaybarnOdbc.DescribeCol

open MachineInt Outcome
open StringOutput (Output writeStringUtf8 writeStringUtf16)
open Diag (utf16)

variable {ρ V α : Type}

/-! ## The types of columns -/

/-- The logical types that `FindRelatedSQLType` tells apart. -/
inductive LogicalTypeId
  | boolean
  | tinyint
  | utinyint
  | smallint
  | usmallint
  | integer
  | uinteger
  | bigint
  | ubigint
  | hugeint
  | uhugeint
  | float
  | double
  | date
  | timestamp
  | timestampMs
  | timestampSec
  | timestampNs
  | timestampTz
  | time
  | varchar
  | blob
  | geometry
  | interval
  | decimal
  | list
  | bit
  | other
  deriving DecidableEq, Repr

/-- The codes of SQL types. -/
inductive SqlType
  | unknownType
  | char
  | tinyint
  | smallint
  | integer
  | bigint
  | numeric
  | decimal
  | float
  | real
  | double
  | typeDate
  | typeTime
  | typeTimestamp
  | varchar
  | varbinary
  | interval
  | bit
  deriving DecidableEq, Repr

/-- `LogicalType`, with the width and the scale that `DecimalType` reads. -/
structure LogicalType where
  id : LogicalTypeId
  width : ℕ
  scale : ℕ
  deriving DecidableEq, Repr

/-- `FindRelatedSQLType`. -/
def findRelatedSQLType : LogicalTypeId → SqlType
  | .boolean => .char
  | .tinyint => .tinyint
  | .utinyint => .tinyint
  | .smallint => .smallint
  | .usmallint => .smallint
  | .integer => .integer
  | .uinteger => .integer
  | .bigint => .bigint
  | .ubigint => .bigint
  | .hugeint => .numeric
  | .uhugeint => .numeric
  | .float => .float
  | .double => .double
  | .date => .typeDate
  | .timestamp => .typeTimestamp
  | .timestampMs => .typeTimestamp
  | .timestampSec => .typeTimestamp
  | .timestampNs => .typeTimestamp
  | .timestampTz => .typeTimestamp
  | .time => .typeTime
  | .varchar => .varchar
  | .blob => .varbinary
  | .geometry => .varbinary
  | .interval => .interval
  | .decimal => .decimal
  | .list => .varchar
  | .bit => .bit
  | .other => .unknownType

/-- `IsUnsigned`. -/
def LogicalType.isUnsigned (t : LogicalType) : Bool :=
  t.id ∈ [.utinyint, .usmallint, .uinteger, .ubigint, .uhugeint]

/-- `GetTemporalPrecision`. -/
def getTemporalPrecision : LogicalTypeId → ℕ
  | .time => 6
  | .timestamp => 6
  | .timestampTz => 6
  | .timestampMs => 3
  | .timestampSec => 0
  | .timestampNs => 9
  | _ => 0

/-- `MAX_VARCHAR_COLUMN_SIZE`. -/
def maxVarcharColumnSize : ℕ := 8000

/-- `MAX_VARBINARY_COLUMN_SIZE`. -/
def maxVarbinaryColumnSize : ℕ := maxVarcharColumnSize

/-- The width of a decimal number, that of the engine's big integers being fixed. -/
def getColumnWidth (t : LogicalType) : ℕ :=
  match t.id with
  | .hugeint => 38
  | .uhugeint => 38
  | _ => t.width

/-- `GetColumnSize`. -/
def getColumnSize (t : LogicalType) : ℕ :=
  match findRelatedSQLType t.id with
  | .decimal => getColumnWidth t
  | .numeric => getColumnWidth t
  | .bit => 1
  | .tinyint => 3
  | .smallint => 5
  | .integer => 10
  | .bigint => if t.isUnsigned then 20 else 19
  | .real => 7
  | .float => 15
  | .double => 15
  | .typeDate => 10
  | .typeTime =>
    let precision := getTemporalPrecision t.id
    if 0 < precision then 9 + precision else 8
  | .typeTimestamp =>
    let precision := getTemporalPrecision t.id
    if 0 < precision then 20 + precision else 19
  | .varchar => maxVarcharColumnSize
  | .varbinary => maxVarbinaryColumnSize
  | _ => 0

/-- The decimal digits of a column. -/
def decimalDigits (t : LogicalType) : ℕ :=
  if t.id = .decimal then t.scale
  else
    let sqlType := findRelatedSQLType t.id
    if sqlType = .typeTime ∨ sqlType = .typeTimestamp then getTemporalPrecision t.id else 0

/-! ## The call -/

/-- A column of a prepared statement, of `GetNames` and `GetTypes`. -/
structure Column where
  name : List UInt8
  type : LogicalType

/-- The arguments, and whether each pointer is there. -/
structure Args where
  columnNumber : ℕ
  columnName : Bool
  bufferLength : ℤ
  nameLengthPtr : Bool
  dataTypePtr : Bool
  columnSizePtr : Bool
  decimalDigitsPtr : Bool
  nullablePtr : Bool

/-- What `WriteStringCol` returns and writes. The record it posts has a data source name, which
is not part of a `DiagRecord`. -/
structure WrittenCol (ρ V α : Type) where
  ret : SqlReturn
  h : OdbcHandleStmt ρ V
  columnName : Output α
  nameLength : Option ℤ

/-- `WriteStringCol` of a name of so many units, of which a number was written. -/
def writeStringColOf (h : OdbcHandleStmt ρ V) (characterAttributePtr : Bool) (bufferLength : ℤ)
    (stringLength : Bool) (written length : ℕ) (out : Output α) : WrittenCol ρ V α :=
  if bufferLength < 0 then
    let (ret, h) :=
      h.setDiagnosticRecord .error "SQLDescribeCol" "Invalid string or buffer length" .stHY090
    ⟨ret, h, .nothing, none⟩
  else
    let nameLength := if stringLength then some (i16.wrap length) else none
    if characterAttributePtr = true ∧ written < length then
      let (ret, h) :=
        h.setDiagnosticRecord .successWithInfo "SQLDescribeCol" "String data, right truncated"
          .st01004
      ⟨ret, h, out, nameLength⟩
    else ⟨.success, h, out, nameLength⟩

/-- `WriteStringCol` of `SQLCHAR`. -/
def writeStringCol (h : OdbcHandleStmt ρ V) (str : List UInt8) (characterAttributePtr : Bool)
    (bufferLength : ℤ) (stringLength : Bool) : WrittenCol ρ V UInt8 :=
  let (written, out) := writeStringUtf8 str characterAttributePtr (sizeT bufferLength)
  writeStringColOf h characterAttributePtr bufferLength stringLength written str.length out

/-- `WriteStringCol` of `SQLWCHAR`. -/
def writeStringColW (h : OdbcHandleStmt ρ V) (str : List UInt8) (characterAttributePtr : Bool)
    (bufferLength : ℤ) (stringLength : Bool) : WrittenCol ρ V UInt16 :=
  let ((written, utf16Vec), out) :=
    writeStringUtf16 str characterAttributePtr (sizeT bufferLength)
  writeStringColOf h characterAttributePtr bufferLength stringLength written utf16Vec.length out

/-- The outcome of a call : its code, the handle, and what it writes. -/
structure Described (ρ V α : Type) where
  ret : SqlReturn
  h : OdbcHandleStmt ρ V
  columnName : Output α
  nameLength : Option ℤ
  dataType : Option SqlType
  columnSize : Option ℕ
  decimalDigits : Option ℕ
  /-- `SQL_NULLABLE_UNKNOWN` was written. -/
  nullable : Bool

/-- Nothing is written. -/
def Described.untouched (ret : SqlReturn) (h : OdbcHandleStmt ρ V) : Described ρ V α :=
  ⟨ret, h, .nothing, none, none, none, none, false⟩

/-- What is written behind the name, which does not depend on it. -/
def WrittenCol.described (w : WrittenCol ρ V α) (colType : LogicalType) (a : Args) :
    Described ρ V α :=
  ⟨w.ret, w.h, w.columnName, w.nameLength,
    if a.dataTypePtr then some (findRelatedSQLType colType.id) else none,
    if a.columnSizePtr then some (getColumnSize colType) else none,
    if a.decimalDigitsPtr then some (decimalDigits colType) else none,
    a.nullablePtr⟩

/-- `DescribeColInternal`. The index of column number zero is out of range. -/
def describeColInternal
    (writeStringCol : OdbcHandleStmt ρ V → List UInt8 → Bool → ℤ → Bool → WrittenCol ρ V α)
    (h : OdbcHandleStmt ρ V) (columns : List Column) (a : Args) : Except Fault (Described ρ V α) :=
  match h.convertHSTMTPrepared with
  | (.success, h) =>
    if columns.length < a.columnNumber then .ok (.untouched .error h)
    else
      match a.columnNumber with
      | 0 => .error .outOfRange
      | colIdx + 1 =>
        match columns[colIdx]? with
        | none => .error .outOfRange
        | some column =>
          let w := writeStringCol h column.name a.columnName a.bufferLength a.nameLengthPtr
          .ok (w.described column.type a)
  | (ret, h) => .ok (.untouched ret h)

/-- `SQLDescribeCol`. -/
def sqlDescribeCol (h : OdbcHandleStmt ρ V) (columns : List Column) (a : Args) :
    Except Fault (Described ρ V UInt8) :=
  describeColInternal writeStringCol h columns a

/-- `SQLDescribeColW`, which makes bytes of the number of characters. -/
def sqlDescribeColW (h : OdbcHandleStmt ρ V) (columns : List Column) (a : Args) :
    Except Fault (Described ρ V UInt16) :=
  describeColInternal writeStringColW h columns
    { a with bufferLength := i16.wrap (a.bufferLength * 2) }

/-! ## Names in ASCII -/

/-- The bytes as units. -/
def widen (o : Output UInt8) : Output UInt16 := ⟨o.copied.map UInt8.toUInt16, o.terminator⟩

/-- Cutting a text and widening it can be swapped. -/
theorem widen_fitted (text : List UInt8) (c : ℕ) :
    widen (.fitted text c) = .fitted (text.map UInt8.toUInt16) c := by
  unfold Output.fitted
  split
  · rfl
  · rw [widen, List.map_take, List.length_map]

/-- An ASCII character is one unit in both encodings. -/
theorem encode_ascii : ∀ n < 128, String.utf8EncodeChar (Char.ofNat n) = [UInt8.ofNat n] ∧
    Unicode.utf16EncodeChar (Char.ofNat n) = [UInt16.ofNat n] := by
  decide

/-- A name in ASCII is a text with one unit for each byte, in UTF-8 and in UTF-16. -/
theorem exists_text_of_ascii : ∀ {name : List UInt8}, (∀ b ∈ name, b < 128) →
    ∃ cs : List Char, cs.flatMap String.utf8EncodeChar = name ∧
      cs.flatMap Unicode.utf16EncodeChar = name.map UInt8.toUInt16
  | [], _ => ⟨[], rfl, rfl⟩
  | b :: name, hascii => by
    obtain ⟨cs, h8, h16⟩ := exists_text_of_ascii fun b hb => hascii b (List.mem_cons_of_mem _ hb)
    obtain ⟨hb8, hb16⟩ :=
      encode_ascii b.toNat (UInt8.lt_iff_toNat_lt.1 (hascii b List.mem_cons_self))
    have hunit : UInt16.ofNat b.toNat = b.toUInt16 := UInt16.toNat_inj.1 (by simp)
    refine ⟨Char.ofNat b.toNat :: cs, ?_, ?_⟩
    · rw [List.flatMap_cons, hb8, h8, UInt8.ofNat_toNat]
      rfl
    · rw [List.flatMap_cons, hb16, h16, hunit]
      rfl

/-- So is an ASCII name. -/
theorem utf16_ascii {name : List UInt8} (hascii : ∀ b ∈ name, b < 128) :
    utf16 name = name.map UInt8.toUInt16 := by
  obtain ⟨cs, h8, h16⟩ := exists_text_of_ascii hascii
  rw [← h8, StringOutput.utf16_encode, h8, h16]

/-! ## Writing the name -/

/-- The name is cut to the buffer. -/
theorem writeStringCol_eq (h : OdbcHandleStmt ρ V) (str : List UInt8) (attr : Bool) {k : ℤ}
    (hpos : 1 ≤ k) (hfits : i16.Fits k) (stringLength : Bool) :
    writeStringCol h str attr k stringLength =
      writeStringColOf h attr k stringLength (if attr then min str.length (k.toNat - 1) else 0)
        str.length (if attr then .fitted str k.toNat else .nothing) := by
  obtain ⟨-, hhigh⟩ := fits_i16.mp hfits
  have hsize : sizeT k = k.toNat := by
    have := sizeT_of_nonneg (n := k) (by omega) (by omega)
    omega
  have hroom : sizeT ((k.toNat : ℤ) - 1) = k.toNat - 1 := by
    have := sizeT_of_nonneg (n := (k.toNat : ℤ) - 1) (by omega) (by omega)
    omega
  rw [writeStringCol, hsize, writeStringUtf8, hroom]
  cases attr with
  | false => rfl
  | true =>
    dsimp only
    rw [if_pos rfl, if_pos rfl, if_pos rfl, StringOutput.fitted_of_pos _ (by omega)]

/-- So it is in characters, as far as twice the length fits. -/
theorem writeStringColW_eq (h : OdbcHandleStmt ρ V) (str : List UInt8) (attr : Bool) {k : ℤ}
    (hpos : 1 ≤ k) (hhigh : k ≤ 16383) (stringLength : Bool) :
    writeStringColW h str attr (k * 2) stringLength =
      writeStringColOf h attr (k * 2) stringLength
        (if attr then min (utf16 str).length (k.toNat - 1) else 0) (utf16 str).length
        (if attr then .fitted (utf16 str) k.toNat else .nothing) := by
  have hsize : sizeT (k * 2) = k.toNat * 2 := by
    have := sizeT_of_nonneg (n := k * 2) (by omega) (by omega)
    omega
  rw [writeStringColW, hsize]
  cases attr with
  | false => rfl
  | true => rw [StringOutput.writeStringUtf16_eq, Nat.mul_div_cancel _ (by decide)]; rfl

/-! ## The two calls -/

/-- The code and the outputs are the same, and a name that is written is cut where the buffer
of characters ends. -/
structure Agrees (columns : List Column) (a : Args) (n : Described ρ V UInt8)
    (w : Described ρ V UInt16) : Prop where
  ret : w.ret = n.ret
  columnName : w.columnName = widen n.columnName
  truncation : n.ret.succeeded = true → a.columnName = true →
    ∀ column ∈ columns[a.columnNumber - 1]?,
      n.columnName = .fitted column.name a.bufferLength.toNat
  nameLength : w.nameLength = n.nameLength
  dataType : w.dataType = n.dataType
  columnSize : w.columnSize = n.columnSize
  decimalDigits : w.decimalDigits = n.decimalDigits
  nullable : w.nullable = n.nullable

variable {h : OdbcHandleStmt ρ V} {columns : List Column} {a : Args}

/-- A call that does not come to the name does not depend on how it is written. -/
theorem describeColInternal_agree
    (write : OdbcHandleStmt ρ V → List UInt8 → Bool → ℤ → Bool → WrittenCol ρ V UInt8)
    (writeW : OdbcHandleStmt ρ V → List UInt8 → Bool → ℤ → Bool → WrittenCol ρ V UInt16)
    (hreach : h.convertHSTMTPrepared.1 = .success → 1 ≤ a.columnNumber →
      columns.length < a.columnNumber) (k : ℤ) :
    Agree (Agrees columns a) (describeColInternal write h columns a)
      (describeColInternal writeW h columns { a with bufferLength := k }) := by
  have huntouched : ∀ (h' : OdbcHandleStmt ρ V),
      Agrees columns a (.untouched .error h') (.untouched .error h') := fun h' =>
    ⟨rfl, rfl, nofun, rfl, rfl, rfl, rfl, rfl⟩
  unfold describeColInternal
  rcases h.convertHSTMTPrepared_cases with ⟨stmt, -, -, hconv⟩ | ⟨diag, hconv⟩
  · rw [hconv] at hreach ⊢
    dsimp only
    by_cases hbeyond : columns.length < a.columnNumber
    · rw [if_pos hbeyond, if_pos hbeyond]
      exact .ok (huntouched _)
    · rw [if_neg hbeyond, if_neg hbeyond]
      have hzero : a.columnNumber = 0 := by
        by_contra hne
        exact hbeyond (hreach rfl (by omega))
      rw [hzero]
      exact .error _
  · rw [hconv]
    exact .ok (huntouched _)

/-- A call that comes to the name of a column. -/
theorem describeColInternal_of_column
    (write : OdbcHandleStmt ρ V → List UInt8 → Bool → ℤ → Bool → WrittenCol ρ V α)
    {h' : OdbcHandleStmt ρ V} (hconv : h.convertHSTMTPrepared = (.success, h')) {colIdx : ℕ}
    (hnumber : a.columnNumber = colIdx + 1) {column : Column}
    (hcolumn : columns[colIdx]? = some column) :
    describeColInternal write h columns a =
      .ok ((write h' column.name a.columnName a.bufferLength a.nameLengthPtr).described
        column.type a) := by
  have hlt : colIdx < columns.length := (List.getElem?_eq_some_iff.1 hcolumn).1
  unfold describeColInternal
  rw [hconv]
  dsimp only
  rw [if_neg (by omega), hnumber]
  dsimp only
  rw [hcolumn]

/-- `WriteStringCol` of a name in ASCII and of its units. -/
theorem agrees_of_name {h' : OdbcHandleStmt ρ V} {column : Column}
    (hascii : ∀ b ∈ column.name, b < 128) (hpos : 1 ≤ a.bufferLength)
    (hhigh : a.bufferLength ≤ 16383) (hcolumn : columns[a.columnNumber - 1]? = some column) :
    Agrees columns a
      ((writeStringCol h' column.name a.columnName a.bufferLength a.nameLengthPtr).described
        column.type a)
      ((writeStringColW h' column.name a.columnName (a.bufferLength * 2)
        a.nameLengthPtr).described column.type { a with bufferLength := a.bufferLength * 2 }) := by
  have hlen : (column.name.map UInt8.toUInt16).length = column.name.length := List.length_map ..
  rw [writeStringCol_eq _ _ _ hpos (fits_i16.mpr ⟨by omega, by omega⟩),
    writeStringColW_eq _ _ _ hpos hhigh, utf16_ascii hascii, hlen]
  unfold writeStringColOf
  rw [if_neg (show ¬a.bufferLength < 0 by omega), if_neg (show ¬a.bufferLength * 2 < 0 by omega)]
  cases hname : a.columnName with
  | false =>
    simp only [Bool.false_eq_true, false_and, if_false]
    exact ⟨rfl, rfl, fun _ h => absurd (hname.symm.trans h) Bool.false_ne_true, rfl, rfl, rfl,
      rfl, rfl⟩
  | true =>
    have htruncation : ∀ column' ∈ columns[a.columnNumber - 1]?,
        Output.fitted column.name a.bufferLength.toNat =
          .fitted column'.name a.bufferLength.toNat := fun column' hmem => by
      rw [hcolumn] at hmem
      rw [Option.some.inj hmem]
    simp only [if_true, true_and]
    split
    · exact ⟨rfl, (widen_fitted _ _).symm, fun _ _ => htruncation, rfl, rfl, rfl, rfl, rfl⟩
    · exact ⟨rfl, (widen_fitted _ _).symm, fun _ _ => htruncation, rfl, rfl, rfl, rfl, rfl⟩

/-- `WriteStringCol` refuses a negative length, and no other. -/
theorem ret_writeStringColOf_eq_error_iff (attr : Bool) (k : ℤ) (stringLength : Bool)
    (written length : ℕ) (out : Output α) :
    (writeStringColOf h attr k stringLength written length out).ret = .error ↔ k < 0 := by
  unfold writeStringColOf
  split
  · next hneg => exact iff_of_true rfl hneg
  · next hnonneg =>
    refine iff_of_false ?_ hnonneg
    dsimp only
    by_cases hcut : attr = true ∧ written < length
    · rw [if_pos hcut]
      exact SqlReturn.noConfusion
    · rw [if_neg hcut]
      exact SqlReturn.noConfusion

/-- A name is refused just for a negative length. -/
theorem ret_writeStringCol_eq_error_iff {str : List UInt8} {attr stringLength : Bool} {k : ℤ} :
    (writeStringCol h str attr k stringLength).ret = .error ↔ k < 0 :=
  ret_writeStringColOf_eq_error_iff ..

theorem ret_writeStringColW_eq_error_iff {str : List UInt8} {attr stringLength : Bool} {k : ℤ} :
    (writeStringColW h str attr k stringLength).ret = .error ↔ k < 0 :=
  ret_writeStringColOf_eq_error_iff ..

/-- The lengths in bytes that a `SQLSMALLINT` holds. -/
theorem wrap_double {k : ℤ} (hpos : 1 ≤ k) (hfits : i16.Fits k) :
    (k ≤ 16383 ∧ i16.wrap (k * 2) = k * 2) ∨ (16384 ≤ k ∧ i16.wrap (k * 2) < 0) := by
  obtain ⟨-, hhigh⟩ := fits_i16.mp hfits
  by_cases hsmall : k ≤ 16383
  · exact .inl ⟨hsmall, IntType.wrap_of_fits (by decide) (fits_i16.mpr ⟨by omega, by omega⟩)⟩
  · refine .inr ⟨by omega, ?_⟩
    have hwrap : i16.wrap (k * 2) = (k * 2 + 2 ^ 15) % 2 ^ 16 - 2 ^ 15 := rfl
    rw [hwrap]
    omega

/-- For a column name in ASCII the two calls agree exactly when the length of the buffer can be
doubled, if they come to the name. -/
theorem describeCol_agree_iff (h : OdbcHandleStmt ρ V) (columns : List Column) (a : Args)
    (hpos : 1 ≤ a.bufferLength) (hfits : i16.Fits a.bufferLength)
    (hascii : ∀ column ∈ columns, ∀ b ∈ column.name, b < 128) :
    Agree (Agrees columns a) (sqlDescribeCol h columns a) (sqlDescribeColW h columns a) ↔
      (h.convertHSTMTPrepared.1 = .success → 1 ≤ a.columnNumber →
        a.columnNumber ≤ columns.length → a.bufferLength ≤ 16383) := by
  unfold sqlDescribeCol sqlDescribeColW
  by_cases hreach : h.convertHSTMTPrepared.1 = .success ∧ 1 ≤ a.columnNumber ∧
      a.columnNumber ≤ columns.length
  · obtain ⟨hprepared, hone, hle⟩ := hreach
    have hconv : h.convertHSTMTPrepared = (.success, h.convertHSTMTPrepared.2) :=
      Prod.ext hprepared rfl
    have hnumber : a.columnNumber = a.columnNumber - 1 + 1 := by omega
    obtain ⟨column, hcolumn⟩ : ∃ column, columns[a.columnNumber - 1]? = some column :=
      ⟨_, List.getElem?_eq_getElem (by omega)⟩
    have hname := hascii column (List.mem_of_getElem? hcolumn)
    rw [describeColInternal_of_column writeStringCol hconv hnumber hcolumn,
      describeColInternal_of_column (a := { a with bufferLength := i16.wrap (a.bufferLength * 2) })
        writeStringColW hconv hnumber hcolumn]
    dsimp only
    rcases wrap_double hpos hfits with ⟨hsmall, hwrap⟩ | ⟨hlarge, hneg⟩
    · rw [hwrap]
      exact iff_of_true (.ok (agrees_of_name hname hpos hsmall hcolumn)) fun _ _ _ => hsmall
    · refine iff_of_false (fun hagree => ?_) fun hall => by have := hall hprepared hone hle; omega
      cases hagree with
      | ok hagrees =>
        have herror := hagrees.ret.symm.trans (ret_writeStringColW_eq_error_iff.2 hneg)
        have hnarrow := ret_writeStringCol_eq_error_iff.1 herror
        omega
  · have hbeyond : h.convertHSTMTPrepared.1 = .success → 1 ≤ a.columnNumber →
        columns.length < a.columnNumber := fun hprepared hone => by
      by_contra hle
      exact hreach ⟨hprepared, hone, by omega⟩
    refine iff_of_true (describeColInternal_agree _ _ hbeyond _) fun hprepared hone hle => ?_
    have := hbeyond hprepared hone
    omega

/-- A prepared statement with one column, `a`. -/
def oneColumn : OdbcHandleStmt Unit Unit :=
  { (OdbcHandleStmt.blank : OdbcHandleStmt Unit Unit) with stmt := some ⟨none, 0, 1, true, false⟩ }

/-- A call that asks for the name of the first column alone. -/
def nameOnly (bufferLength : ℤ) : Args := ⟨1, true, bufferLength, true, false, false, false, false⟩

/-- The two agree up to the largest buffer. -/
theorem describeCol_agree_iff_largest :
    Agree (Agrees [⟨[0x61], ⟨.integer, 0, 0⟩⟩] (nameOnly 16383))
      (sqlDescribeCol oneColumn [⟨[0x61], ⟨.integer, 0, 0⟩⟩] (nameOnly 16383))
      (sqlDescribeColW oneColumn [⟨[0x61], ⟨.integer, 0, 0⟩⟩] (nameOnly 16383)) :=
  (describeCol_agree_iff oneColumn [⟨[0x61], ⟨.integer, 0, 0⟩⟩] (nameOnly 16383) (by decide)
    (by decide) (List.forall_mem_singleton.2 (List.forall_mem_singleton.2 (by decide)))).2
    fun _ _ _ => by decide

/-- With one character more the wide call refuses the length. -/
theorem not_agree_beyond_largest :
    ¬Agree (Agrees [⟨[0x61], ⟨.integer, 0, 0⟩⟩] (nameOnly 16384))
      (sqlDescribeCol oneColumn [⟨[0x61], ⟨.integer, 0, 0⟩⟩] (nameOnly 16384))
      (sqlDescribeColW oneColumn [⟨[0x61], ⟨.integer, 0, 0⟩⟩] (nameOnly 16384)) := by
  intro hagree
  have hnarrow : sqlDescribeCol oneColumn [⟨[0x61], ⟨.integer, 0, 0⟩⟩] (nameOnly 16384) =
      .ok ((writeStringCol oneColumn.convertHSTMT [0x61] true 16384 true).described
        ⟨.integer, 0, 0⟩ (nameOnly 16384)) := rfl
  have hwide : sqlDescribeColW oneColumn [⟨[0x61], ⟨.integer, 0, 0⟩⟩] (nameOnly 16384) =
      .ok ((writeStringColW oneColumn.convertHSTMT [0x61] true (-32768) true).described
        ⟨.integer, 0, 0⟩ (nameOnly (-32768))) := rfl
  rw [hnarrow, hwide] at hagree
  cases hagree with
  | ok hagrees =>
    have herror := hagrees.ret.symm.trans (ret_writeStringColW_eq_error_iff.2 (by decide))
    exact absurd (ret_writeStringCol_eq_error_iff.1 herror) (by decide)

end HaybarnOdbc.DescribeCol
