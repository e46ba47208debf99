import HaybarnOdbc.Descriptors

/-!
# The table of types

`ApiInfo::ODBC_SUPPORTED_SQL_TYPES`, as far as a descriptor takes it over. A type has itself as
its SQL data type, but for the types of intervals and the one of UUID, which are texts
(`sqlDataType_of_findDataType`).
-/

namespace HaybarnOdbc.Desc

/-- `MAX_COLUMN_SIZE`. -/
def maxColumnSize : ℕ := 2147483647

/-- The rows of character types and of binaries. -/
def lengthRow (literalPrefix : String) (sqlDataType searchable fixedPrecScale : ℤ) :
    OdbcTypeInfo where
  columnSize := maxColumnSize
  literalPrefix := Diag.bytes literalPrefix
  literalSuffix := Diag.bytes "''''"
  nullable := 1
  caseSensitive := 1
  searchable := searchable
  unsignedAttribute := -1
  fixedPrecScale := fixedPrecScale
  localTypeName := Diag.bytes "NULL"
  minimumScale := -1
  sqlDataType := sqlDataType
  sqlDatetimeSub := -1
  numPrecRadix := -1
  intervalPrecision := -1

/-- The rows of numbers. -/
def numberRow (columnSize : ℕ) (quote : String) (unsignedAttribute sqlDataType numPrecRadix : ℤ) :
    OdbcTypeInfo where
  columnSize := columnSize
  literalPrefix := Diag.bytes quote
  literalSuffix := Diag.bytes quote
  nullable := 1
  caseSensitive := 0
  searchable := 2
  unsignedAttribute := unsignedAttribute
  fixedPrecScale := 0
  localTypeName := Diag.bytes "NULL"
  minimumScale := 0
  sqlDataType := sqlDataType
  sqlDatetimeSub := -1
  numPrecRadix := numPrecRadix
  intervalPrecision := -1

/-- The rows of dates, times and intervals. -/
def datetimeRow (columnSize : ℕ) (minimumScale sqlDataType sqlDatetimeSub : ℤ) : OdbcTypeInfo where
  columnSize := columnSize
  literalPrefix := Diag.bytes "''''"
  literalSuffix := Diag.bytes "''''"
  nullable := 1
  caseSensitive := 0
  searchable := 2
  unsignedAttribute := -1
  fixedPrecScale := 0
  localTypeName := Diag.bytes "NULL"
  minimumScale := minimumScale
  sqlDataType := sqlDataType
  sqlDatetimeSub := sqlDatetimeSub
  numPrecRadix := -1
  intervalPrecision := -1

/-- `ODBC_SUPPORTED_SQL_TYPES`, by `data_type`. -/
def odbcSupportedSqlTypes : List (ℤ × OdbcTypeInfo) :=
  [(1, lengthRow "''''" 1 3 0),
    (-7, { numberRow 1 "NULL" 1 (-7) (-1) with
      fixedPrecScale := 1, localTypeName := Diag.bytes "'boolean'", minimumScale := -1 }),
    (-6, numberRow 3 "NULL" 0 (-6) 2),
    (5, numberRow 5 "NULL" 0 5 2),
    (4, numberRow 10 "NULL" 0 4 2),
    (-5, numberRow 19 "NULL" 0 (-5) 2),
    (91, datetimeRow 10 (-1) 91 1),
    (92, datetimeRow 8 0 92 2),
    (93, datetimeRow 26 0 93 3),
    (3, numberRow 38 "''''" (-1) 3 10),
    (2, numberRow 38 "''''" (-1) 2 10),
    (6, numberRow 24 "NULL" 0 6 2),
    (8, numberRow 53 "NULL" 0 8 2),
    (12, lengthRow "''''" 12 3 0),
    (-9, lengthRow "''''" (-9) 3 0),
    (-3, lengthRow "'x'''" (-3) 2 0),
    (0, lengthRow "''''" 12 2 0),
    (101, datetimeRow 9 0 12 1),
    (102, datetimeRow 10 0 12 2),
    (103, datetimeRow 5 0 12 3),
    (104, datetimeRow 6 0 12 4),
    (105, datetimeRow 8 0 12 5),
    (106, datetimeRow 10 0 12 6),
    (107, datetimeRow 12 0 12 7),
    (108, datetimeRow 8 0 12 8),
    (109, datetimeRow 11 0 12 9),
    (110, datetimeRow 14 0 12 10),
    (111, datetimeRow 9 0 12 11),
    (112, datetimeRow 12 0 12 12),
    (113, datetimeRow 12 0 12 13)]

/-- The first row that `FindDataType` finds. -/
def findDataType (dataType : ℤ) : Option OdbcTypeInfo :=
  (odbcSupportedSqlTypes.find? fun row => row.1 = dataType).map Prod.snd

/-- The types whose SQL data type is another one. -/
def IsText (type : ℤ) : Prop := type = 0 ∨ 101 ≤ type ∧ type ≤ 113

instance (type : ℤ) : Decidable (IsText type) := inferInstanceAs (Decidable (_ ∨ _))

/-- In the table a text has the type 12, and everything else its own. -/
theorem sqlDataType_of_mem : ∀ row ∈ odbcSupportedSqlTypes,
    row.2.sqlDataType = if IsText row.1 then 12 else row.1 := by
  decide

/-- So has what is found in it. -/
theorem sqlDataType_of_findDataType {type : ℤ} {info : OdbcTypeInfo}
    (h : findDataType type = some info) :
    info.sqlDataType = if IsText type then 12 else type := by
  obtain ⟨row, hrow, rfl⟩ := Option.map_eq_some_iff.1 h
  obtain rfl : row.1 = type := by simpa using List.find?_some hrow
  exact sqlDataType_of_mem row (List.mem_of_find?_eq_some hrow)

theorem bounds_of_mem : ∀ row ∈ odbcSupportedSqlTypes,
    row.1 ≠ 9 ∧ row.1 ≠ 10 ∧ row.2.sqlDataType ≤ 100 := by
  decide

/-- What is found is no date or time without its verbose type. -/
theorem bounds_of_findDataType {type : ℤ} {info : OdbcTypeInfo}
    (h : findDataType type = some info) : type ≠ 9 ∧ type ≠ 10 ∧ info.sqlDataType ≤ 100 := by
  obtain ⟨row, hrow, rfl⟩ := Option.map_eq_some_iff.1 h
  obtain rfl : row.1 = type := by simpa using List.find?_some hrow
  exact bounds_of_mem row (List.mem_of_find?_eq_some hrow)

end HaybarnOdbc.Desc
