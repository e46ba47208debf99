import HaybarnOdbc.DescValues
import HaybarnOdbc.DiagReads
import HaybarnOdbc.DescribeCol

/-!
# The metadata of columns

A column is described three times. `SQLDescribeCol` looks at its type, while `SQLColAttribute` and
`SQLGetDescField` read the record of the implementation row descriptor that `FillIRD` made of the
type and of the table of types. The three were written apart. `described_alike_iff` names the types
for which a column has the same type, size and digits whichever way it is asked, and
`attribute_as_field_iff` the fields for which the two ways of reading its record answer alike.
-/

namespace HaybarnOdbc.DescribeCol

open Desc
open Diag (CharType smallInt bytes)

variable {ρ V α : Type}

/-! ## The record of a column -/

/-- The number of an SQL type. -/
def code : SqlType → ℤ
  | .unknownType => 0
  | .char => 1
  | .tinyint => -6
  | .smallint => 5
  | .integer => 4
  | .bigint => -5
  | .numeric => 2
  | .decimal => 3
  | .float => 6
  | .real => 7
  | .double => 8
  | .typeDate => 91
  | .typeTime => 92
  | .typeTimestamp => 93
  | .varchar => 12
  | .varbinary => -3
  | .interval => 10
  | .bit => -7

/-- `TypeIdToString` of the physical type. -/
def internalTypeName (t : LogicalType) : String :=
  match t.id with
  | .boolean => "BOOL"
  | .tinyint => "INT8"
  | .utinyint => "UINT8"
  | .smallint => "INT16"
  | .usmallint => "UINT16"
  | .integer | .date => "INT32"
  | .uinteger => "UINT32"
  | .bigint | .time | .timestamp | .timestampMs | .timestampSec | .timestampNs
  | .timestampTz => "INT64"
  | .ubigint => "UINT64"
  | .hugeint => "INT128"
  | .uhugeint => "UINT128"
  | .float => "FLOAT"
  | .double => "DOUBLE"
  | .decimal =>
    if t.width ≤ 4 then "INT16" else if t.width ≤ 9 then "INT32" else if t.width ≤ 18 then "INT64"
    else "INT128"
  | .interval => "INTERVAL"
  | .list => "LIST"
  | .varchar | .blob | .geometry | .bit | .other => "VARCHAR"

/-- `GetDisplaySize`. -/
def getDisplaySize (t : LogicalType) : ℕ :=
  let decimalSize :=
    match t.id with
    | .hugeint | .uhugeint => 40
    | _ => t.width + 2
  match findRelatedSQLType t.id with
  | .decimal => decimalSize
  | .numeric => decimalSize
  | .bit => 1
  | .tinyint => if t.isUnsigned then 3 else 4
  | .smallint => if t.isUnsigned then 5 else 6
  | .integer => if t.isUnsigned then 10 else 11
  | .bigint => 20
  | .real => 14
  | .float => 24
  | .double => 24
  | .typeDate => 10
  | .typeTime =>
    let precision := getTemporalPrecision t.id
    if 0 < precision then 9 + precision else 8
  | .typeTimestamp =>
    let precision := getTemporalPrecision t.id
    if 0 < precision then 20 + precision else 19
  | .varchar => maxVarcharColumnSize
  | .varbinary => maxVarbinaryColumnSize
  | _ => 0

/-- `SetDescUnsignedField`. -/
def setDescUnsignedField (t : LogicalType) (r : Desc.DescRecord) : Desc.DescRecord :=
  if r.unsigned = -1 ∨ t.id ∈ [.utinyint, .usmallint, .uinteger, .ubigint] then
    { r with unsigned := 1 }
  else r

/-- `SetSqlDescType`. A type that the table does not have changes nothing. -/
def setSqlDescType (type : ℤ) (r : Desc.DescRecord) : Desc.DescRecord :=
  match findDataType type with
  | none => r
  | some info => r.setSqlDescType info

/-- The type that a record is made of. An interval is one of days to seconds. -/
def describedType (id : LogicalTypeId) : ℤ :=
  if findRelatedSQLType id = .interval then 110 else code (findRelatedSQLType id)

/-- What `FillIRD` sets apart from the table of types : the width and the scale of a decimal number,
and the digits of the seconds. -/
def setDigits (t : LogicalType) (r : Desc.DescRecord) : Desc.DescRecord :=
  if findRelatedSQLType t.id = .decimal ∨ findRelatedSQLType t.id = .numeric then
    if t.id = .decimal then { r with precision := t.width, scale := t.scale } else r
  else if findRelatedSQLType t.id = .typeTime ∨ findRelatedSQLType t.id = .typeTimestamp then
    { r with precision := getTemporalPrecision t.id, scale := getTemporalPrecision t.id }
  else r

/-- The record that `FillIRD` makes of a column. -/
def fillRecord (catalogName : List UInt8) (column : Column) : Desc.DescRecord :=
  let t := column.type
  let named : Desc.DescRecord :=
    { baseColumnName := column.name
      name := column.name
      label := column.name
      length := column.name.length
      -- `SQL_UNNAMED` and `SQL_NAMED`
      unnamed := if column.name = [] then 1 else 0 }
  let typed :=
    { setSqlDescType (describedType t.id) named with
      typeName := bytes (if findRelatedSQLType t.id = .unknownType then "VARCHAR"
        else internalTypeName t) }
  { setDescUnsignedField t { setDigits t typed with displaySize := getDisplaySize t } with
    catalogName := catalogName
    schemaName := [] }

/-- `FillIRD`. -/
def fillIRD (catalogName : List UInt8) (columns : List Column) (ird : OdbcHandleDesc) :
    OdbcHandleDesc :=
  { ird with header.count := 0, records := columns.map (fillRecord catalogName) }

/-! ## SQLColAttribute -/

/-- The pointers of a call, and the length of its buffer. `stringLengthPtr` is what stands at the
pointer, if it is there. -/
structure AttributeArgs where
  characterAttributePtr : Bool
  bufferLength : ℤ
  stringLengthPtr : Option ℤ
  numericAttributePtr : Bool

/-- What a call returns, posts and stores. -/
structure Attribute (α : Type) where
  ret : SqlReturn
  posted : List Posted
  character : Option (List α)
  stringLength : Option ℤ
  numeric : Option ℤ
  deriving DecidableEq, Repr

/-- Nothing is stored, and a record says why. -/
def AttributeArgs.refuse (a : AttributeArgs) (ret : SqlReturn) (msg sqlState : String) :
    Attribute α :=
  ⟨ret, [⟨"SQLColAttribute(s)", msg, sqlState⟩], none, a.stringLengthPtr, none⟩

/-- A record is added, with the code it comes with. -/
def Attribute.inform (x : Attribute α) (msg sqlState : String) : Attribute α :=
  { x with ret := .successWithInfo, posted := x.posted ++ [⟨"SQLColAttribute(s)", msg, sqlState⟩] }

/-- `SetNumericAttributePtr`. -/
def setNumericAttributePtr (val : ℤ) (a : AttributeArgs) : Attribute α :=
  if a.numericAttributePtr then ⟨.success, [], none, a.stringLengthPtr, some val⟩
  else a.refuse .error "Memory management error; numeric attribute pointer is null" "HY013"

section Attributes

variable (C : CharType α)

/-- `WriteStringCol`. -/
def writeStringAttribute (str : List UInt8) (a : AttributeArgs) : Attribute α :=
  if a.bufferLength < 0 then a.refuse .error "Invalid string or buffer length" "HY090"
  else
    let character := if a.characterAttributePtr then some (C.copied str a.bufferLength) else none
    let x : Attribute α := ⟨.success, [], character,
      a.stringLengthPtr.map fun _ => smallInt (C.units str).length, none⟩
    if character.any (·.length < (C.units str).length) then
      x.inform "String data, right truncated" "01004"
    else x

/-- The cases of `ColAttributeInternal`, for a record of a descriptor with so many of them. -/
def attributeOf (recordCount : ℕ) (r : Desc.DescRecord) (f : FieldId) (a : AttributeArgs) :
    Attribute α :=
  match f with
  | .autoUniqueValue =>
    let x := setNumericAttributePtr 0 a
    if x.ret = .error then x
    else x.inform "DuckDB does not support autoincrementing columns" "HYC00"
  | .baseColumnName => writeStringAttribute C r.baseColumnName a
  | .tableName | .baseTableName => a.refuse .error "Driver not capable" "HYC00"
  | .caseSensitive => setNumericAttributePtr r.caseSensitive a
  | .catalogName => writeStringAttribute C r.catalogName a
  | .conciseType => setNumericAttributePtr r.conciseType a
  | .count | .column .count => setNumericAttributePtr recordCount a
  | .displaySize =>
    let x := setNumericAttributePtr r.displaySize a
    -- also where the pointer is null
    if r.displaySize = 0 then
      x.inform "Cannot determine the column or parameter length of variable types" "01000"
    else x
  | .fixedPrecScale => setNumericAttributePtr r.fixedPrecScale a
  | .label => writeStringAttribute C r.label a
  | .length | .column .length => setNumericAttributePtr r.length a
  | .literalPrefix => writeStringAttribute C r.literalPrefix a
  | .literalSuffix => writeStringAttribute C r.literalSuffix a
  | .localTypeName => writeStringAttribute C r.localTypeName a
  | .name | .column .name => writeStringAttribute C r.name a
  | .nullable | .column .nullable => setNumericAttributePtr r.nullable a
  | .numPrecRadix => setNumericAttributePtr r.numPrecRadix a
  | .octetLength => setNumericAttributePtr r.octetLength a
  | .precision | .column .precision => setNumericAttributePtr r.precision a
  | .scale | .column .scale =>
    if r.scale = -1 then
      -- `SQL_NO_TOTAL`
      let x := setNumericAttributePtr (-4) a
      if x.ret.succeeded then
        x.inform "SQL_NO_TOTAL: Scale is undefined for this column data type" "01000"
      else x
    else setNumericAttributePtr r.scale a
  | .schemaName => writeStringAttribute C r.schemaName a
  | .searchable => setNumericAttributePtr r.searchable a
  | .type => setNumericAttributePtr r.type a
  | .typeName => writeStringAttribute C r.typeName a
  | .unnamed => setNumericAttributePtr r.unnamed a
  | .unsigned => setNumericAttributePtr r.unsigned a
  | .updatable => setNumericAttributePtr r.updatable a
  | _ => a.refuse .error "Invalid descriptor field identifier" "HY091"

/-- The outcome of a call, with the statement as it was converted. -/
structure ColAttribute (ρ V α : Type) where
  h : OdbcHandleStmt ρ V
  answer : Attribute α

/-- `ColAttributeInternal`. `notCursor` says that there is a result that is neither the one of a
query nor of changed rows. A column number beyond the types of the statement is refused, also where
only the number of columns is asked for. -/
def colAttributeInternal (h : OdbcHandleStmt ρ V) (notCursor : Bool) (columns : List Column)
    (ird : OdbcHandleDesc) (columnNumber : ℕ) (f : FieldId) (a : AttributeArgs) :
    Option (ColAttribute ρ V α) :=
  match h.convertHSTMTPrepared with
  | (.success, h) =>
    if f ≠ .count ∧ notCursor = true then
      some ⟨h, a.refuse .error "Prepared statement not a cursor-specification" "07005"⟩
    else if columnNumber < 1 ∨ columnNumber > columns.length then
      some ⟨h, a.refuse .error "Invalid descriptor index" "07009"⟩
    else
      let ird := ird.getDescRecord (columnNumber - 1)
      (ird.records[columnNumber - 1]?).map fun r =>
        ⟨h, attributeOf C ird.records.length r f a⟩
  | (ret, h) => some ⟨h, ⟨ret, [], none, a.stringLengthPtr, none⟩⟩

end Attributes

/-! ## What the record of a column holds -/

/-- What the table of types has for a type : the type, the precision, the scale and the size. -/
def tableNumbers : LogicalTypeId → ℤ × ℤ × ℤ × ℕ
  | .boolean => (1, -1, -1, maxColumnSize)
  | .tinyint | .utinyint => (-6, 3, 0, 3)
  | .smallint | .usmallint => (5, 5, 0, 5)
  | .integer | .uinteger => (4, 10, 0, 10)
  | .bigint | .ubigint => (-5, 19, 0, 19)
  | .hugeint | .uhugeint => (2, 38, 0, 38)
  | .decimal => (3, 38, 0, 38)
  | .float => (6, 24, 0, 24)
  | .double => (8, 53, 0, 53)
  | .date => (91, 10, -1, 10)
  | .time => (92, 8, 0, 8)
  | .timestamp | .timestampTz | .timestampMs | .timestampSec | .timestampNs => (93, 26, 0, 26)
  | .varchar | .list | .other => (12, -1, -1, maxColumnSize)
  | .blob | .geometry => (-3, -1, -1, maxColumnSize)
  | .interval => (12, 14, 0, 14)
  | .bit => (-7, 1, -1, 1)

/-- The type table has a row for the type of every column. -/
theorem findDataType_describedType (id : LogicalTypeId) : ∃ info,
    findDataType (describedType id) = some info ∧
      (info.sqlDataType, smallInt info.columnSize, info.minimumScale, info.columnSize) =
        tableNumbers id := by
  have h : (findDataType (describedType id)).map (fun info =>
      (info.sqlDataType, smallInt info.columnSize, info.minimumScale, info.columnSize)) =
        some (tableNumbers id) := by
    cases id <;> decide +kernel
  exact Option.map_eq_some_iff.1 h

/-- The type, the precision, the scale and the length in the record of a column. -/
def numbers (t : LogicalType) : ℤ × ℤ × ℤ × ℕ :=
  match t.id with
  | .decimal => (3, t.width, t.scale, 38)
  | .time => (92, 6, 6, 8)
  | .timestamp | .timestampTz => (93, 6, 6, 26)
  | .timestampMs => (93, 3, 3, 26)
  | .timestampSec => (93, 0, 0, 26)
  | .timestampNs => (93, 9, 9, 26)
  | id => tableNumbers id

/-- The four numbers of a record. -/
def recordNumbers (r : Desc.DescRecord) : ℤ × ℤ × ℤ × ℕ :=
  (r.conciseType, r.precision, r.scale, r.length)

/-- The record has the numbers of its row of the table. -/
theorem recordNumbers_ofInfo (r : Desc.DescRecord) (info : OdbcTypeInfo) :
    recordNumbers (r.setSqlDescType info) =
      (info.sqlDataType, smallInt info.columnSize, info.minimumScale, info.columnSize) := by
  have hcode : (r.setSqlDescType info).conciseType = info.sqlDataType := by
    change (r.toDescRecord.setSqlDataType info.sqlDataType).conciseType = info.sqlDataType
    rw [DescRecord.setSqlDataType]
    split <;> rfl
  rw [recordNumbers, hcode]
  simp only [Desc.DescRecord.setSqlDescType]

theorem recordNumbers_setSqlDescType (id : LogicalTypeId) (r : Desc.DescRecord) :
    recordNumbers (setSqlDescType (describedType id) r) = tableNumbers id := by
  obtain ⟨info, hinfo, hnumbers⟩ := findDataType_describedType id
  rw [setSqlDescType, hinfo, ← hnumbers, ← recordNumbers_ofInfo r info]

/-- The sign is none of them. -/
theorem recordNumbers_setDescUnsignedField (t : LogicalType) (r : Desc.DescRecord) :
    recordNumbers (setDescUnsignedField t r) = recordNumbers r := by
  unfold setDescUnsignedField
  split <;> rfl

theorem displaySize_setDescUnsignedField (t : LogicalType) (r : Desc.DescRecord) :
    (setDescUnsignedField t r).displaySize = r.displaySize := by
  unfold setDescUnsignedField
  split <;> rfl

/-- The digits that are set apart. -/
theorem recordNumbers_setDigits {t : LogicalType} {r : Desc.DescRecord}
    (h : recordNumbers r = tableNumbers t.id) : recordNumbers (setDigits t r) = numbers t := by
  obtain ⟨id, width, scale⟩ := t
  obtain ⟨hcode, hrest⟩ := Prod.ext_iff.1 h
  obtain ⟨-, hrest⟩ := Prod.ext_iff.1 hrest
  obtain ⟨-, hlength⟩ := Prod.ext_iff.1 hrest
  cases id with
  | decimal | time | timestamp | timestampTz | timestampMs | timestampSec | timestampNs =>
    exact Prod.ext hcode (Prod.ext rfl (Prod.ext rfl hlength))
  | _ => exact h

/-- The record of a column has the numbers of its type. -/
theorem recordNumbers_fillRecord (catalogName : List UInt8) (column : Column) :
    recordNumbers (fillRecord catalogName column) = numbers column.type := by
  refine (recordNumbers_setDescUnsignedField ..).trans ?_
  exact recordNumbers_setDigits (recordNumbers_setSqlDescType ..)

/-! ## Asked by the type and by the record -/

/-- The field that has the size of a column : the precision of a number, the length of everything
else. -/
def sizeField (id : LogicalTypeId) : FieldId :=
  if findRelatedSQLType id ∈ [.tinyint, .smallint, .integer, .bigint, .numeric, .decimal, .float,
    .real, .double] then .precision else .length

/-- The field that has the decimal digits : the precision of seconds, the scale of everything
else. -/
def digitsField (id : LogicalTypeId) : FieldId :=
  if findRelatedSQLType id ∈ [.typeTime, .typeTimestamp] then .precision else .scale

/-- The number that `SQLColAttribute` stores, for a query. -/
def numericAttribute (C : CharType α) (h : OdbcHandleStmt ρ V) (columns : List Column)
    (ird : OdbcHandleDesc) (columnNumber : ℕ) (f : FieldId) : Option ℤ :=
  (colAttributeInternal C h false columns ird columnNumber f ⟨false, 0, none, true⟩).bind fun x =>
    x.answer.numeric

/-- The number that is stored of the four numbers of a record. -/
def attributeNumber (n : ℤ × ℤ × ℤ × ℕ) : FieldId → ℤ
  | .conciseType => n.1
  | .precision => n.2.1
  | .scale => if n.2.2.1 = -1 then -4 else n.2.2.1
  | _ => n.2.2.2

/-- The two APIs name the same type for all but these. -/
theorem code_eq_iff (t : LogicalType) :
    code (findRelatedSQLType t.id) = attributeNumber (numbers t) .conciseType ↔
      t.id ∉ [.interval, .other] := by
  obtain ⟨id, width, scale⟩ := t
  cases id <;> simp [code, findRelatedSQLType, attributeNumber, numbers, tableNumbers]

/-- They give the same size for these types only. -/
theorem columnSize_eq_iff (t : LogicalType) :
    (getColumnSize t : ℤ) = attributeNumber (numbers t) (sizeField t.id) ↔
      t.id ∈ [.tinyint, .utinyint, .smallint, .usmallint, .integer, .uinteger, .bigint, .hugeint,
        .uhugeint, .decimal, .date, .timestamp, .timestampTz, .bit] := by
  obtain ⟨id, width, scale⟩ := t
  cases id <;> simp [getColumnSize, getColumnWidth, getTemporalPrecision, findRelatedSQLType,
    attributeNumber, sizeField, numbers, tableNumbers, LogicalType.isUnsigned,
    maxVarcharColumnSize, maxVarbinaryColumnSize, maxColumnSize]

/-- They give the same digits for all but these. -/
theorem decimalDigits_eq_iff (t : LogicalType) :
    (decimalDigits t : ℤ) = attributeNumber (numbers t) (digitsField t.id) ↔
      t.id ∉ [.boolean, .date, .varchar, .list, .blob, .geometry, .bit, .other] := by
  obtain ⟨id, width, scale⟩ := t
  cases id with
  | decimal =>
    have hscale : ((scale : ℕ) : ℤ) ≠ -1 := by omega
    simp [decimalDigits, findRelatedSQLType, attributeNumber, digitsField, numbers, hscale]
  | _ => simp [decimalDigits, getTemporalPrecision, findRelatedSQLType, attributeNumber,
      digitsField, numbers, tableNumbers]

section Columns

variable {C : CharType α} {h : OdbcHandleStmt ρ V} {catalogName : List UInt8}
  {ird : OdbcHandleDesc} {columns : List Column} {columnNumber : ℕ} {column : Column}

/-- A call that comes to the record of a column. -/
theorem colAttributeInternal_of_column (hprepared : h.convertHSTMTPrepared.1 = .success)
    (hnumber : 1 ≤ columnNumber) (hcolumn : columns[columnNumber - 1]? = some column) (f : FieldId)
    (a : AttributeArgs) :
    colAttributeInternal C h false columns (fillIRD catalogName columns ird) columnNumber f a =
      some ⟨h.convertHSTMTPrepared.2,
        attributeOf C columns.length (fillRecord catalogName column) f a⟩ := by
  have hconv : h.convertHSTMTPrepared = (.success, h.convertHSTMTPrepared.2) :=
    Prod.ext hprepared rfl
  obtain ⟨hlt, -⟩ := List.getElem?_eq_some_iff.1 hcolumn
  have hlength : (columns.map (fillRecord catalogName)).length = columns.length :=
    List.length_map ..
  have hird : (fillIRD catalogName columns ird).getDescRecord (columnNumber - 1) =
      fillIRD catalogName columns ird := by
    rw [OdbcHandleDesc.getDescRecord]
    exact if_neg (by rw [fillIRD, hlength]; omega)
  have hrecord : (columns.map (fillRecord catalogName))[columnNumber - 1]? =
      some (fillRecord catalogName column) := by
    rw [List.getElem?_map, hcolumn]
    rfl
  unfold colAttributeInternal
  rw [hconv]
  dsimp only
  rw [if_neg (fun hand => Bool.false_ne_true hand.2), if_neg (by omega), hird]
  change Option.map _ (columns.map (fillRecord catalogName))[columnNumber - 1]? = _
  rw [hrecord]
  change some _ = some _
  rw [← hlength]
  rfl

/-- A number that is asked for is that of the type. -/
theorem numericAttribute_eq (hprepared : h.convertHSTMTPrepared.1 = .success)
    (hnumber : 1 ≤ columnNumber) (hcolumn : columns[columnNumber - 1]? = some column) {f : FieldId}
    (hf : f ∈ [.conciseType, .precision, .scale, .length]) :
    numericAttribute C h columns (fillIRD catalogName columns ird) columnNumber f =
      some (attributeNumber (numbers column.type) f) := by
  rw [numericAttribute, colAttributeInternal_of_column hprepared hnumber hcolumn,
    ← recordNumbers_fillRecord catalogName]
  generalize fillRecord catalogName column = r
  simp only [List.mem_cons, List.not_mem_nil, or_false] at hf
  rcases hf with rfl | rfl | rfl | rfl
  · rfl
  · rfl
  · by_cases hscale : r.scale = -1
    · simp [attributeOf, attributeNumber, recordNumbers, hscale, setNumericAttributePtr,
        Attribute.inform, SqlReturn.succeeded]
    · simp [attributeOf, attributeNumber, recordNumbers, hscale, setNumericAttributePtr]
  · rfl

/-- `SQLDescribeCol` and `SQLColAttribute` describe a column alike exactly for some types : its
type, its size, and its decimal digits. -/
theorem described_alike_iff (C : CharType α) (h : OdbcHandleStmt ρ V) (catalogName : List UInt8)
    (ird : OdbcHandleDesc) (columns : List Column) (column : Column) (a : Args)
    (hprepared : h.convertHSTMTPrepared.1 = .success) (hnumber : 1 ≤ a.columnNumber)
    (hcolumn : columns[a.columnNumber - 1]? = some column) (htype : a.dataTypePtr = true)
    (hsize : a.columnSizePtr = true) (hdigits : a.decimalDigitsPtr = true) :
    ∃ d, sqlDescribeCol h columns a = .ok d ∧
      (d.dataType.map code = numericAttribute C h columns (fillIRD catalogName columns ird)
          a.columnNumber .conciseType ↔ column.type.id ∉ [.interval, .other]) ∧
      (d.columnSize.map Nat.cast = numericAttribute C h columns (fillIRD catalogName columns ird)
          a.columnNumber (sizeField column.type.id) ↔
        column.type.id ∈ [.tinyint, .utinyint, .smallint, .usmallint, .integer, .uinteger, .bigint,
          .hugeint, .uhugeint, .decimal, .date, .timestamp, .timestampTz, .bit]) ∧
      (d.decimalDigits.map Nat.cast = numericAttribute C h columns
          (fillIRD catalogName columns ird) a.columnNumber (digitsField column.type.id) ↔
        column.type.id ∉ [.boolean, .date, .varchar, .list, .blob, .geometry, .bit, .other]) := by
  have hconv : h.convertHSTMTPrepared = (.success, h.convertHSTMTPrepared.2) :=
    Prod.ext hprepared rfl
  have hdescribed := describeColInternal_of_column writeStringCol hconv
    (by omega : a.columnNumber = a.columnNumber - 1 + 1) hcolumn
  have hsizeField :
      sizeField column.type.id ∈ [FieldId.conciseType, .precision, .scale, .length] := by
    unfold sizeField
    split <;> decide
  have hdigitsField :
      digitsField column.type.id ∈ [FieldId.conciseType, .precision, .scale, .length] := by
    unfold digitsField
    split <;> decide
  refine ⟨_, hdescribed, ?_, ?_, ?_⟩
  · rw [numericAttribute_eq hprepared hnumber hcolumn (by decide), WrittenCol.described, htype,
      if_pos rfl, Option.map_some, Option.some_inj]
    exact code_eq_iff column.type
  · rw [numericAttribute_eq hprepared hnumber hcolumn hsizeField, WrittenCol.described, hsize,
      if_pos rfl, Option.map_some, Option.some_inj]
    exact columnSize_eq_iff column.type
  · rw [numericAttribute_eq hprepared hnumber hcolumn hdigitsField, WrittenCol.described, hdigits,
      if_pos rfl, Option.map_some, Option.some_inj]
    exact decimalDigits_eq_iff column.type

/-- The nanoseconds of a timestamp make the column longer than its record says. -/
def nanosColumn : Column := ⟨[0x61], ⟨.timestampNs, 0, 0⟩⟩

/-- A timestamp of nanoseconds is not described alike. -/
theorem described_alike_iff_nanos :
    ∃ d,
      sqlDescribeCol oneColumn [nanosColumn] ⟨1, true, 16, true, true, true, true, true⟩ = .ok d ∧
      d.columnSize.map Nat.cast ≠ numericAttribute Diag.char oneColumn [nanosColumn]
        (fillIRD [] [nanosColumn] ⟨{}, [], 0, some 1, []⟩) 1 .length := by
  obtain ⟨d, hd, -, hsize, -⟩ := described_alike_iff Diag.char oneColumn [] ⟨{}, [], 0, some 1, []⟩
    [nanosColumn] nanosColumn ⟨1, true, 16, true, true, true, true, true⟩ rfl (by decide) rfl rfl
    rfl rfl
  exact ⟨d, hd, fun hequal => absurd (hsize.1 hequal) (by decide)⟩

end Columns

/-! ## Two ways to read a record -/

/-- The two answers are alike : the same code, and the same number or text. `SQLColAttribute` keeps
the length of a text in a `SQLSMALLINT`. -/
def Attribute.Alike (x : Attribute α) (got : Got α) : Prop :=
  x.ret = got.ret ∧
    match got.stored with
    | .number n => x.numeric = some n
    | .text units length => x.character = units ∧ x.stringLength = some (smallInt length)
    | .pointer _ => False
    | .nothing => x.numeric = none ∧ x.character = none

/-- The fields for which they are, for a column of the type and a buffer. A negative length of the
buffer is an error for every text. -/
def sharedField (t : LogicalType) (bufferLength : ℤ) : FieldId → Bool
  -- only `SQLColAttribute` has a record or an error for these
  | .autoUniqueValue => false
  | .tableName | .baseTableName => bufferLength < 0
  | .displaySize => t.id ∉ [.boolean, .interval, .other]
  | .scale => t.id ∉ [.boolean, .date, .varchar, .list, .blob, .geometry, .bit, .other]
  -- `FillIRD` leaves the count at zero
  | .count => false
  -- `SQLGetDescField` has these fields of application descriptors only
  | .nullable | .unnamed | .unsigned => false
  -- `SQLColAttribute` does not have these
  | .allocType | .arrayStatusPtr | .rowsProcessedPtr | .datetimeIntervalCode
  | .datetimeIntervalPrecision => false
  -- `SQLGetDescField` does not have these
  | .column field => field = .name ∧ bufferLength < 0
  | _ => true

/-- The display size of a column is that of its type. -/
theorem displaySize_fillRecord (catalogName : List UInt8) (column : Column) :
    (fillRecord catalogName column).displaySize = getDisplaySize column.type :=
  displaySize_setDescUnsignedField ..

theorem displaySize_ne_zero_iff (t : LogicalType) (n : ℤ) :
    sharedField t n .displaySize = true ↔ (getDisplaySize t : ℤ) ≠ 0 := by
  obtain ⟨id, width, scale⟩ := t
  cases id <;> simp [sharedField, getDisplaySize, getTemporalPrecision, findRelatedSQLType,
    LogicalType.isUnsigned, maxVarcharColumnSize, maxVarbinaryColumnSize]
  omega

theorem scale_ne_iff (t : LogicalType) (n : ℤ) :
    sharedField t n .scale = true ↔ (numbers t).2.2.1 ≠ -1 := by
  obtain ⟨id, width, scale⟩ := t
  cases id with
  | decimal =>
    have hscale : (scale : ℤ) ≠ -1 := by omega
    exact iff_of_true rfl hscale
  | _ => simp [sharedField, numbers, tableNumbers]

section Alike

variable {C : CharType α} {d : OdbcHandleDesc} {a : AttributeArgs}

/-- A number is told alike. -/
theorem numeric_alike (n : ℤ) (hnumeric : a.numericAttributePtr = true) :
    (setNumericAttributePtr n a : Attribute α).Alike ⟨.success, .number n, d⟩ := by
  rw [setNumericAttributePtr, if_pos hnumeric]
  exact ⟨rfl, rfl⟩

theorem ret_setNumericAttributePtr (n : ℤ) (hnumeric : a.numericAttributePtr = true) :
    (setNumericAttributePtr n a : Attribute α).ret = .success := by
  rw [setNumericAttributePtr, if_pos hnumeric]

/-- A text is told alike. -/
theorem text_alike (str : List UInt8) (hcharacter : a.characterAttributePtr = true)
    (hptr : a.stringLengthPtr.isSome = true) :
    (writeStringAttribute C str a).Alike (writeStringDesc C d str true a.bufferLength) := by
  obtain ⟨stood, hstood⟩ := Option.isSome_iff_exists.1 hptr
  unfold writeStringAttribute writeStringDesc
  by_cases hneg : a.bufferLength < 0
  · rw [if_pos hneg, if_pos hneg]
    exact ⟨rfl, rfl, rfl⟩
  rw [if_neg hneg, if_neg hneg, hcharacter, hstood]
  dsimp only
  rw [if_pos rfl, Option.map_some]
  by_cases hcut : (some (C.copied str a.bufferLength)).any (·.length < (C.units str).length) = true
  · rw [if_pos hcut, if_pos hcut]
    exact ⟨rfl, rfl, rfl⟩
  · rw [if_neg hcut, if_neg hcut]
    exact ⟨rfl, rfl, rfl⟩

/-- A refusal is told alike. -/
theorem refused_alike (msg sqlState : String) :
    (a.refuse .error msg sqlState : Attribute α).Alike (invalidField d) := ⟨rfl, rfl, rfl⟩

/-- A scale that is undefined comes with a record that says so. -/
theorem ret_scale (n : ℕ) (r : Desc.DescRecord) (hnumeric : a.numericAttributePtr = true) :
    (attributeOf C n r .scale a).ret = if r.scale = -1 then .successWithInfo else .success := by
  by_cases htotal : r.scale = -1
  · rw [attributeOf, if_pos htotal, if_pos htotal]
    dsimp only
    rw [if_pos (by rw [ret_setNumericAttributePtr _ hnumeric]; rfl)]
    rfl
  · rw [attributeOf, if_neg htotal, if_neg htotal]
    exact ret_setNumericAttributePtr _ hnumeric

/-- A text that is refused either way. -/
theorem refused_alike_text (str : List UInt8) (msg sqlState : String) (hneg : a.bufferLength < 0) :
    (a.refuse .error msg sqlState : Attribute α).Alike
      (writeStringDesc C d str true a.bufferLength) := by
  rw [writeStringDesc, if_pos hneg]
  exact ⟨rfl, rfl, rfl⟩

theorem ret_writeStringAttribute (str : List UInt8) (hneg : ¬a.bufferLength < 0) :
    (writeStringAttribute C str a).ret ≠ .error := by
  unfold writeStringAttribute
  rw [if_neg hneg]
  dsimp only
  generalize (if a.characterAttributePtr = true then _ else none : Option (List α)) = character
  split
  · exact (by decide : SqlReturn.successWithInfo ≠ .error)
  · exact (by decide : SqlReturn.success ≠ .error)

theorem ret_writeStringDesc (str : List UInt8) (hneg : ¬a.bufferLength < 0) :
    (writeStringDesc C d str true a.bufferLength).ret ≠ .error := by
  unfold writeStringDesc
  rw [if_neg hneg]
  dsimp only
  rw [if_pos rfl]
  by_cases hcut : (some (C.copied str a.bufferLength)).any (·.length < (C.units str).length) = true
  · rw [if_pos hcut]
    exact (by decide : SqlReturn.successWithInfo ≠ .error)
  · rw [if_neg hcut]
    exact (by decide : SqlReturn.success ≠ .error)

/-- Codes that differ. -/
theorem not_alike (ret ret' : SqlReturn) {x : Attribute α} {got : Got α} (hx : x.ret = ret)
    (hgot : got.ret = ret') (hne : ret ≠ ret') : ¬x.Alike got := fun hand =>
  hne (hx.symm.trans (hand.1.trans hgot))

/-- The answers for a field of a record of the implementation row descriptor. -/
theorem alike_iff (hID : d.isID = true) (hAD : d.isAD = false) (hzero : d.header.count = 0)
    {n : ℕ} (hpos : 1 ≤ n) (r : Desc.DescRecord) {t : LogicalType}
    (hdisplay : r.displaySize = getDisplaySize t) (hscale : r.scale = (numbers t).2.2.1)
    (hcharacter : a.characterAttributePtr = true) (hnumeric : a.numericAttributePtr = true)
    (hptr : a.stringLengthPtr.isSome = true) (f : FieldId) :
    (attributeOf C n r f a).Alike ((getHeaderField d f).getD
      (getRecordField C d ⟨true, false⟩ r f true a.bufferLength)) ↔
        sharedField t a.bufferLength f = true := by
  cases f with
  | caseSensitive | conciseType | fixedPrecScale | length | numPrecRadix | octetLength | precision
  | searchable | type | updatable =>
    exact iff_of_true (numeric_alike _ hnumeric) rfl
  | baseColumnName | catalogName | label | literalPrefix | literalSuffix | schemaName =>
    exact iff_of_true (text_alike _ hcharacter hptr) rfl
  | localTypeName | name | typeName =>
    simp only [getHeaderField, getRecordField, textUnless, Option.getD_none, hAD,
      Bool.false_eq_true, if_false]
    exact iff_of_true (text_alike _ hcharacter hptr) rfl
  | arraySize | bindOffsetPtr | bindType | dataPtr | indicatorPtr | octetLengthPtr =>
    simp only [getHeaderField, getRecordField, storeUnless, Option.getD_none, Option.getD_some,
      hID, if_true]
    exact iff_of_true (refused_alike _ _) rfl
  | rowver =>
    simp only [getHeaderField, getRecordField, storeUnless, Option.getD_none, hAD, Bool.not_false,
      if_true]
    exact iff_of_true (refused_alike _ _) rfl
  | parameterType | other => exact iff_of_true (refused_alike _ _) rfl
  | nullable | unnamed | unsigned =>
    simp only [getHeaderField, getRecordField, storeUnless, Option.getD_none, hAD, Bool.not_false,
      if_true]
    exact iff_of_false (not_alike .success .error (ret_setNumericAttributePtr _ hnumeric) rfl
      SqlReturn.noConfusion) Bool.false_ne_true
  | autoUniqueValue =>
    refine iff_of_false (not_alike .successWithInfo .success ?_ rfl SqlReturn.noConfusion)
      Bool.false_ne_true
    have hret := ret_setNumericAttributePtr (α := α) 0 hnumeric
    rw [attributeOf, if_neg (by rw [hret]; exact SqlReturn.noConfusion)]
    rfl
  | tableName | baseTableName =>
    rw [sharedField, decide_eq_true_iff]
    by_cases hneg : a.bufferLength < 0
    · exact iff_of_true (refused_alike_text _ _ _ hneg) hneg
    · exact iff_of_false (fun hand => ret_writeStringDesc _ hneg hand.1.symm) hneg
  | column field =>
    rw [sharedField, decide_eq_true_iff]
    cases field with
    | name =>
      by_cases hneg : a.bufferLength < 0
      · refine iff_of_true ?_ ⟨rfl, hneg⟩
        rw [attributeOf, writeStringAttribute, if_pos hneg]
        exact refused_alike _ _
      · exact iff_of_false (fun hand => ret_writeStringAttribute _ hneg hand.1) fun h => hneg h.2
    | scale =>
      refine iff_of_false (fun hand => ?_) fun h => absurd h.1 (by decide)
      have hret : (attributeOf C n r .scale a).ret = .error := hand.1
      rw [ret_scale n r hnumeric] at hret
      split at hret <;> cases hret
    | count | length | nullable | precision =>
      exact iff_of_false (not_alike .success .error (ret_setNumericAttributePtr _ hnumeric) rfl
        SqlReturn.noConfusion) fun h => absurd h.1 (by decide)
  | count =>
    refine iff_of_false (fun hand => ?_) Bool.false_ne_true
    have hnumber : (setNumericAttributePtr n a : Attribute α).numeric = some d.header.count :=
      hand.2
    rw [setNumericAttributePtr, if_pos hnumeric, hzero] at hnumber
    have := Option.some_inj.1 hnumber
    omega
  | allocType | arrayStatusPtr | datetimeIntervalCode | datetimeIntervalPrecision =>
    exact iff_of_false (not_alike .error .success rfl rfl SqlReturn.noConfusion) Bool.false_ne_true
  | rowsProcessedPtr =>
    simp only [getHeaderField, storeUnless, Option.getD_some, hAD, Bool.false_eq_true, if_false]
    exact iff_of_false (not_alike .error .success rfl rfl SqlReturn.noConfusion) Bool.false_ne_true
  | displaySize =>
    have hshared : sharedField t a.bufferLength .displaySize = true ↔ r.displaySize ≠ 0 := by
      rw [hdisplay]
      exact displaySize_ne_zero_iff t _
    rw [hshared]
    by_cases hsize : r.displaySize = 0
    · refine iff_of_false (not_alike .successWithInfo .success ?_ rfl SqlReturn.noConfusion)
        (not_not.2 hsize)
      rw [attributeOf, if_pos hsize]
      rfl
    · refine iff_of_true ?_ hsize
      rw [attributeOf, if_neg hsize]
      exact numeric_alike _ hnumeric
  | scale =>
    have hshared : sharedField t a.bufferLength .scale = true ↔ r.scale ≠ -1 := by
      rw [hscale]
      exact scale_ne_iff t _
    rw [hshared]
    by_cases htotal : r.scale = -1
    · refine iff_of_false (not_alike .successWithInfo .success ?_ rfl SqlReturn.noConfusion)
        (not_not.2 htotal)
      rw [ret_scale n r hnumeric, if_pos htotal]
    · refine iff_of_true ?_ htotal
      rw [attributeOf, if_neg htotal]
      exact numeric_alike _ hnumeric

end Alike

section Fields

variable {C : CharType α} {h : OdbcHandleStmt ρ V} {catalogName : List UInt8}
  {ird : OdbcHandleDesc} {columns : List Column} {columnNumber : ℕ} {column : Column}

/-- A call of `SQLGetDescField` that comes to the record of a column. -/
theorem getDescField_of_column (hcount : columns.length ≤ 32767) (hnumber : 1 ≤ columnNumber)
    (hcolumn : columns[columnNumber - 1]? = some column) (f : FieldId) (bufferLength : ℤ) :
    getDescField C (fillIRD catalogName columns ird) ⟨true, false⟩ columnNumber f true
      bufferLength =
      some ((getHeaderField (fillIRD catalogName columns ird) f).getD
        (getRecordField C (fillIRD catalogName columns ird) ⟨true, false⟩
          (fillRecord catalogName column) f true bufferLength)) := by
  obtain ⟨hlt, -⟩ := List.getElem?_eq_some_iff.1 hcolumn
  have hlength : (fillIRD catalogName columns ird).records.length = columns.length :=
    List.length_map ..
  have hrecord : (fillIRD catalogName columns ird).records[((columnNumber : ℤ) - 1).toNat]? =
      some (fillRecord catalogName column) := by
    rw [show ((columnNumber : ℤ) - 1).toNat = columnNumber - 1 by omega]
    refine (List.getElem?_map ..).trans ?_
    rw [hcolumn]
    rfl
  unfold getDescField
  rw [if_neg (by simp)]
  dsimp only
  cases getHeaderField (fillIRD catalogName columns ird) f with
  | some got =>
    dsimp only
    split <;> rfl
  | none =>
    dsimp only
    rw [hlength, Diag.smallInt_natCast hcount, if_neg (by omega), hrecord, Option.bind_some]
    split <;> rfl

/-- The two ways of reading the record of a column answer alike exactly for the fields that they
share. -/
theorem attribute_as_field_iff (C : CharType α) (h : OdbcHandleStmt ρ V)
    (catalogName : List UInt8) (ird : OdbcHandleDesc) (columns : List Column) (columnNumber : ℕ)
    (column : Column) (a : AttributeArgs) (f : FieldId)
    (hprepared : h.convertHSTMTPrepared.1 = .success) (hird : ird.isID = true)
    (hcount : columns.length ≤ 32767) (hnumber : 1 ≤ columnNumber)
    (hcolumn : columns[columnNumber - 1]? = some column)
    (hcharacter : a.characterAttributePtr = true) (hnumeric : a.numericAttributePtr = true)
    (hptr : a.stringLengthPtr.isSome = true) :
    ∃ x got,
      colAttributeInternal C h false columns (fillIRD catalogName columns ird) columnNumber f a =
        some x ∧
      getDescField C (fillIRD catalogName columns ird) ⟨true, false⟩ columnNumber f true
        a.bufferLength = some got ∧
      (x.answer.Alike got ↔ sharedField column.type a.bufferLength f = true) := by
  obtain ⟨hlt, -⟩ := List.getElem?_eq_some_iff.1 hcolumn
  have hAD : (fillIRD catalogName columns ird).isAD = false := by
    cases hstmt : ird.stmt with
    | none =>
      rw [OdbcHandleDesc.isID, hstmt] at hird
      cases hird
    | some s => exact (congrArg Option.isNone hstmt).trans rfl
  have hscale := congrArg (fun n => n.2.2.1) (recordNumbers_fillRecord catalogName column)
  refine ⟨_, _, colAttributeInternal_of_column hprepared hnumber hcolumn f a,
    getDescField_of_column hcount hnumber hcolumn f a.bufferLength, ?_⟩
  exact alike_iff (d := fillIRD catalogName columns ird) hird hAD rfl (by omega) _
    (displaySize_fillRecord ..) hscale hcharacter hnumeric hptr f

/-- The scale of such a column is read either way. -/
theorem attribute_as_field_iff_nanos :
    ∃ x got, colAttributeInternal Diag.char oneColumn false [nanosColumn]
        (fillIRD [] [nanosColumn] ⟨{}, [], 0, some 1, []⟩) 1 .scale ⟨true, 16, some 0, true⟩ =
          some x ∧
      getDescField Diag.char (fillIRD [] [nanosColumn] ⟨{}, [], 0, some 1, []⟩) ⟨true, false⟩ 1
        .scale true 16 = some got ∧ x.answer.Alike got := by
  obtain ⟨x, got, hx, hgot, halike⟩ := attribute_as_field_iff Diag.char oneColumn []
    ⟨{}, [], 0, some 1, []⟩ [nanosColumn] 1 nanosColumn ⟨true, 16, some 0, true⟩ .scale rfl rfl
    (by decide) (by decide) rfl rfl rfl rfl
  exact ⟨x, got, hx, hgot, halike.2 (by decide)⟩

end Fields

end HaybarnOdbc.DescribeCol
