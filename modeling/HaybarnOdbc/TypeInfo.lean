import HaybarnOdbc.CatalogQueries
import HaybarnOdbc.DescTypes
import HaybarnOdbc.Numerics

/-!
# The query of `SQLGetTypeInfo`

The table of types is handed to the engine as text : `SQLGetTypeInfo` writes the rows of a type
as a list of `VALUES`, each column as a constant that is cast to its type. What the engine reads
are the rows of the table, in their order (`getTypeInfo_reads`). For a type that is not in the
table the list is empty, which is not a query.
-/

namespace HaybarnOdbc.TypeInfo

open SqlLex Catalog MachineInt

/-! ## The table -/

/-- What `OdbcTypeInfo` has besides the fields that a descriptor takes over. -/
structure TypeColumns where
  typeName : String
  createParams : String
  autoUniqueValue : ℤ
  maximumScale : ℤ
  deriving DecidableEq, Repr

/-- `OdbcTypeInfo`. -/
structure TypeRow where
  dataType : ℤ
  info : Desc.OdbcTypeInfo
  columns : TypeColumns
  deriving DecidableEq, Repr

/-- The other columns of `ODBC_SUPPORTED_SQL_TYPES`. -/
def supportedColumns : List TypeColumns :=
  [⟨"'CHAR'", "'length'", 0, -1⟩,
    ⟨"'BOOLEAN'", "NULL", 0, -1⟩,
    ⟨"'TINYINT'", "NULL", 0, 0⟩,
    ⟨"'SMALLINT'", "NULL", 0, 0⟩,
    ⟨"'INTEGER'", "NULL", 0, 0⟩,
    ⟨"'BIGINT'", "NULL", 0, 0⟩,
    ⟨"'DATE'", "NULL", 0, -1⟩,
    ⟨"'TIME'", "NULL", 0, 0⟩,
    ⟨"'TIMESTAMP'", "NULL", 0, 0⟩,
    ⟨"'DECIMAL'", "'precision,scale'", 0, 38⟩,
    ⟨"'NUMERIC'", "'precision,scale'", 0, 38⟩,
    ⟨"'FLOAT'", "NULL", 0, 0⟩,
    ⟨"'DOUBLE'", "NULL", 0, 0⟩,
    ⟨"'VARCHAR'", "'length'", -1, -1⟩,
    ⟨"'VARCHAR'", "'length'", -1, -1⟩,
    ⟨"'BLOB'", "'length'", 0, -1⟩,
    ⟨"'UUID'", "'length'", 0, -1⟩,
    ⟨"'INTERVAL YEAR'", "NULL", -1, 0⟩,
    ⟨"'INTERVAL MONTH'", "NULL", -1, 0⟩,
    ⟨"'INTERVAL DAY'", "NULL", -1, 0⟩,
    ⟨"'INTERVAL HOUR'", "NULL", -1, 0⟩,
    ⟨"'INTERVAL MINUTE'", "NULL", -1, 0⟩,
    ⟨"'INTERVAL SECOND'", "NULL", -1, 0⟩,
    ⟨"'INTERVAL YEAR TO MONTH'", "NULL", -1, 0⟩,
    ⟨"'INTERVAL DAY TO HOUR'", "NULL", -1, 0⟩,
    ⟨"'INTERVAL DAY TO MINUTE'", "NULL", -1, 0⟩,
    ⟨"'INTERVAL DAY TO SECOND'", "NULL", -1, 0⟩,
    ⟨"'INTERVAL HOUR TO MINUTE'", "NULL", -1, 0⟩,
    ⟨"'INTERVAL HOUR TO SECOND'", "NULL", -1, 0⟩,
    ⟨"'INTERVAL MINUTE TO SECOND'", "NULL", -1, 0⟩]

/-- `ODBC_SUPPORTED_SQL_TYPES`. -/
def supportedSqlTypes : List TypeRow :=
  Desc.odbcSupportedSqlTypes.zipWith (fun row columns => ⟨row.1, row.2, columns⟩) supportedColumns

/-- `FindDataType` : the rows of the type that follow its first one. -/
def findDataType (dataType : ℤ) : List TypeRow :=
  (supportedSqlTypes.dropWhile fun row => row.dataType ≠ dataType).takeWhile fun row =>
    row.dataType = dataType

/-! ## The query -/

/-- `std::to_string`. -/
def intText (n : ℤ) : List Char :=
  if n < 0 then '-' :: digitsText n.natAbs else digitsText n.natAbs

/-- The constants of a row with the types they are cast to. -/
def TypeRow.casts (row : TypeRow) : List (List Char × String) :=
  let text (bytes : List UInt8) : List Char := bytes.map fun b => Char.ofNat b.toNat
  [(row.columns.typeName.toList, "VARCHAR"),
    (intText row.dataType, "SMALLINT"),
    (intText row.info.columnSize, "INTEGER"),
    (text row.info.literalPrefix, "VARCHAR"),
    (text row.info.literalSuffix, "VARCHAR"),
    (row.columns.createParams.toList, "VARCHAR"),
    (intText row.info.nullable, "SMALLINT"),
    (intText row.info.caseSensitive, "SMALLINT"),
    (intText row.info.searchable, "SMALLINT"),
    (intText row.info.unsignedAttribute, "SMALLINT"),
    (intText row.info.fixedPrecScale, "SMALLINT"),
    (intText row.columns.autoUniqueValue, "SMALLINT"),
    (text row.info.localTypeName, "VARCHAR"),
    (intText row.info.minimumScale, "SMALLINT"),
    (intText row.columns.maximumScale, "SMALLINT"),
    (intText row.info.sqlDataType, "SMALLINT"),
    (intText row.info.sqlDatetimeSub, "SMALLINT"),
    (intText row.info.numPrecRadix, "integer"),
    (intText row.info.intervalPrecision, "SMALLINT")]

/-- A value with the type it is cast to. -/
def castText (cast : List Char × String) : List Char :=
  "CAST(".toList ++ (cast.1 ++ (" AS ".toList ++ cast.2.toList ++ [')']))

/-- Texts with commas between them. -/
def separated : List (List Char) → List Char
  | [] => []
  | [text] => text
  | text :: texts => text ++ ',' :: separated texts

/-- A row of the VALUES list. -/
def TypeRow.write (row : TypeRow) : List Char :=
  '(' :: (separated (row.casts.map castText) ++ [')'])

/-- `WriteInfoTypesToQueryString`. -/
def writeInfoTypesToQueryString (rows : List TypeRow) : List Char :=
  separated (rows.map TypeRow.write)

theorem writeInfoTypesToQueryString_singleton (row : TypeRow) :
    writeInfoTypesToQueryString [row] = row.write := rfl

theorem writeInfoTypesToQueryString_cons (row row' : TypeRow) (rows : List TypeRow) :
    writeInfoTypesToQueryString (row :: row' :: rows) =
      row.write ++ ([','] ++ writeInfoTypesToQueryString (row' :: rows)) := rfl

/-- The end of the query. The literal of the source is a raw string, so the last parenthesis in
front of its closing quote ends the literal and is no part of the text. -/
def asOdbcTypes : List Char :=
  "
	) AS odbc_types (
		\"TYPE_NAME\",
		\"DATA_TYPE\",
		\"COLUMN_SIZE\",
		\"LITERAL_PREFIX\",
		\"LITERAL_SUFFIX\",
		\"CREATE_PARAMS\",
		\"NULLABLE\",
		\"CASE_SENSITIVE\",
		\"SEARCHABLE\",
		\"UNSIGNED_ATTRIBUTE\",
		\"FIXED_PREC_SCALE\",
		\"AUTO_UNIQUE_VALUE\",
		\"LOCAL_TYPE_NAME\",
		\"MINIMUM_SCALE\",
		\"MAXIMUM_SCALE\",
		\"SQL_DATA_TYPE\",
		\"SQL_DATETIME_SUB\",
		\"NUM_PREC_RADIX\",
		\"INTERVAL_PRECISION\"
	)".toList

/-- `SQL_ALL_TYPES`. -/
def sqlAllTypes : ℤ := 0

/-- The query that `GetTypeInfoInternal` executes. -/
def getTypeInfoQuery (dataType : ℤ) : List Char :=
  "SELECT * FROM (VALUES ".toList ++ (writeInfoTypesToQueryString
    (if dataType = sqlAllTypes then supportedSqlTypes else findDataType dataType) ++ asOdbcTypes)

/-! ## Reading it -/

/-- A value of the result. -/
inductive SqlValue
  | null
  | varchar (text : List Char)
  | number (n : ℤ)
  deriving DecidableEq, Repr

/-- The number of a word with digits, which may have a sign. -/
def readNumber : List Char → Option ℤ
  | '-' :: digits =>
    if digits ≠ [] ∧ digits.all Char.isDigit then some (-digitsValue digits) else none
  | digits => if digits ≠ [] ∧ digits.all Char.isDigit then some (digitsValue digits) else none

/-- The constant that a token is. -/
def readConstant : Token → Option SqlValue
  | .literal value => some (.varchar value)
  | .word text => if text = "NULL".toList then some .null else (readNumber text).map .number
  | _ => none

/-- A cast of a number, which fails out of the range of the type. -/
def castNumber (t : IntType) : SqlValue → Option SqlValue
  | .null => some .null
  | .number n => if t.Fits n then some (.number n) else none
  | .varchar _ => none

/-- A cast to one of the types of the query. -/
def castTo (type : Token) (value : SqlValue) : Option SqlValue :=
  if type = word "VARCHAR" then
    match value with
    | .number _ => none
    | value => some value
  else if type = word "SMALLINT" then castNumber i16 value
  else if type = word "INTEGER" ∨ type = word "integer" then castNumber i32 value
  else none

/-- The value of `CAST(constant AS type)`. -/
def readCast (cast opening constant as type closing : Token) : Option SqlValue :=
  if cast = word "CAST" ∧ opening = .symbol '(' ∧ as = word "AS" ∧ closing = .symbol ')' then
    (readConstant constant).bind (castTo type)
  else none

/-- The rows of a list of `VALUES`, from behind the first parenthesis, with the values of the
current one that are read already; and what is left behind the list. -/
def readValues (row : List SqlValue) : List Token → Option (List (List SqlValue) × List Token)
  | cast :: opening :: constant :: as :: type :: closing :: next :: rest =>
    match readCast cast opening constant as type closing with
    | none => none
    | some value =>
      if next = .symbol ',' then readValues (row ++ [value]) rest
      else if next = .symbol ')' then
        match rest with
        | comma :: opening :: rest =>
          if comma = .symbol ',' ∧ opening = .symbol '(' then
            (readValues [] rest).map fun (rows, rest) => ((row ++ [value]) :: rows, rest)
          else some ([row ++ [value]], comma :: opening :: rest)
        | rest => some ([row ++ [value]], rest)
      else none
  | _ => none

/-- The names of the columns, up to the end of the query. -/
def readNames : List Token → Option (List (List Char))
  | [.identifier name, closing] => if closing = .symbol ')' then some [name] else none
  | .identifier name :: comma :: rest =>
    if comma = .symbol ',' then (readNames rest).map (name :: ·) else none
  | _ => none

/-- The names of the columns and the rows of a `SELECT` of a list of `VALUES`. -/
def readQuery (tokens : List Token) : Option (List (List Char) × List (List SqlValue)) :=
  if tokens.take 6 = [word "SELECT", .symbol '*', word "FROM", .symbol '(', word "VALUES",
      .symbol '('] then
    (readValues [] (tokens.drop 6)).bind fun result =>
      if result.2.take 4 = [.symbol ')', word "AS", word "odbc_types", .symbol '('] then
        (readNames (result.2.drop 4)).map fun names => (names, result.1)
      else none
  else none

/-! ## What is to be read -/

/-- The value of a constant. -/
def constantOf (text : List Char) : Option SqlValue :=
  match lex text with
  | some [token] => readConstant token
  | _ => none

/-- The columns of a row. -/
def TypeRow.values (row : TypeRow) : List SqlValue :=
  let constant (text : List Char) : SqlValue := (constantOf text).getD .null
  let text (bytes : List UInt8) := constant (bytes.map fun b => Char.ofNat b.toNat)
  [constant row.columns.typeName.toList, .number row.dataType, .number row.info.columnSize,
    text row.info.literalPrefix, text row.info.literalSuffix,
    constant row.columns.createParams.toList, .number row.info.nullable,
    .number row.info.caseSensitive, .number row.info.searchable,
    .number row.info.unsignedAttribute, .number row.info.fixedPrecScale,
    .number row.columns.autoUniqueValue, text row.info.localTypeName,
    .number row.info.minimumScale, .number row.columns.maximumScale,
    .number row.info.sqlDataType, .number row.info.sqlDatetimeSub,
    .number row.info.numPrecRadix, .number row.info.intervalPrecision]

/-- The names of the columns. -/
def columnNames : List (List Char) :=
  ["TYPE_NAME", "DATA_TYPE", "COLUMN_SIZE", "LITERAL_PREFIX", "LITERAL_SUFFIX", "CREATE_PARAMS",
    "NULLABLE", "CASE_SENSITIVE", "SEARCHABLE", "UNSIGNED_ATTRIBUTE", "FIXED_PREC_SCALE",
    "AUTO_UNIQUE_VALUE", "LOCAL_TYPE_NAME", "MINIMUM_SCALE", "MAXIMUM_SCALE", "SQL_DATA_TYPE",
    "SQL_DATETIME_SUB", "NUM_PREC_RADIX", "INTERVAL_PRECISION"].map String.toList

/-- The rows of a type, or all of them. -/
def rowsOf (dataType : ℤ) : List TypeRow :=
  if dataType = sqlAllTypes then supportedSqlTypes
  else supportedSqlTypes.filter fun row => row.dataType = dataType

/-- The rows of a type follow one another. -/
theorem findDataType_eq (dataType : ℤ) :
    findDataType dataType = supportedSqlTypes.filter fun row => row.dataType = dataType := by
  by_cases hmem : dataType ∈ supportedSqlTypes.map TypeRow.dataType
  · have hall : ∀ d ∈ supportedSqlTypes.map TypeRow.dataType,
        findDataType d = supportedSqlTypes.filter fun row => row.dataType = d := by decide +kernel
    exact hall dataType hmem
  · have hne : ∀ row ∈ supportedSqlTypes, row.dataType ≠ dataType := fun row hrow heq =>
      hmem (List.mem_map.2 ⟨row, hrow, heq⟩)
    have hdrop : (supportedSqlTypes.dropWhile fun row => row.dataType ≠ dataType) = [] :=
      List.dropWhile_eq_nil_iff.2 fun row hrow => by simpa using hne row hrow
    rw [findDataType, hdrop, List.filter_eq_nil_iff.2 fun row hrow => by simpa using hne row hrow]
    rfl

theorem getTypeInfoQuery_eq (dataType : ℤ) :
    getTypeInfoQuery dataType = "SELECT * FROM (VALUES ".toList ++
      (writeInfoTypesToQueryString (rowsOf dataType) ++ asOdbcTypes) := by
  unfold getTypeInfoQuery rowsOf
  rw [findDataType_eq]

/-! ## Constants -/

/-- The text is a constant of SQL, which has a value as the type that it is cast to. -/
structure Means (text : List Char) (type : String) (value : SqlValue) : Prop where
  constant : ∃ token, Whole text [token] ∧
    (readConstant token).bind (castTo (word type)) = some value
  type : Reads (" AS ".toList ++ type.toList ++ [')']) [word "AS", word type, .symbol ')']

theorem isWordChar_of_isDigit {c : Char} (hc : c.isDigit = true) : isWordChar c = true := by
  have halnum : c.isAlphanum = true := by simp [Char.isAlphanum, hc]
  rw [isWordChar, halnum, Bool.true_or, Bool.true_or, Bool.true_or]

theorem readNumber_digits {digits : List Char} (hne : digits ≠ [])
    (hdigits : ∀ c ∈ digits, c.isDigit = true) : readNumber digits = some (digitsValue digits) := by
  cases digits with
  | nil => exact absurd rfl hne
  | cons c digits =>
    have hc : c ≠ '-' := by
      rintro rfl
      exact absurd (hdigits _ List.mem_cons_self) (by decide)
    rw [readNumber]
    · exact if_pos ⟨hne, List.all_eq_true.2 hdigits⟩
    · intro ds heq
      exact hc (List.cons.inj heq).1

/-- A number is read as a word. -/
theorem whole_intText (n : ℤ) :
    Whole (intText n) [.word (intText n)] ∧ readNumber (intText n) = some n := by
  have hdigits : ∀ c ∈ digitsText n.natAbs, c.isDigit = true :=
    fun c hc => isDigit_of_mem_digitsText hc
  have hne := digitsText_ne_nil n.natAbs
  have hword : ∀ c ∈ digitsText n.natAbs, isWordChar c = true :=
    fun c hc => isWordChar_of_isDigit (hdigits c hc)
  by_cases hn : n < 0
  · rw [intText, if_pos hn]
    constructor
    · obtain ⟨d, ds, heq⟩ := List.exists_cons_of_ne_nil hne
      rw [heq] at hdigits hword ⊢
      have hd := hdigits d List.mem_cons_self
      have hdash : d ≠ '-' := by
        rintro rfl
        exact absurd hd (by decide)
      have hrun : run .code ('-' :: d :: ds) = ([], .word ('-' :: d :: ds)) := by
        have hrest := run_word_append ['-', d] ds fun c hc =>
          isWordPart_of_isWordChar (hword c (List.mem_cons_of_mem d hc))
        have hstart : start '-' = ([], .dash) := rfl
        simp [run, step, hstart, hdash, hd, hrest]
      refine ⟨by rw [hrun]; rfl, ?_⟩
      rw [lex, lexFrom, hrun]
      rfl
    · rw [readNumber, if_pos ⟨hne, List.all_eq_true.2 hdigits⟩, digitsValue_digitsText]
      exact congrArg some (by omega)
  · rw [intText, if_neg hn]
    refine ⟨whole_word hne hword, ?_⟩
    rw [readNumber_digits hne hdigits, digitsValue_digitsText]
    exact congrArg some (by omega)

theorem intText_ne_null (n : ℤ) : intText n ≠ "NULL".toList := by
  intro hnull
  have hread := (whole_intText n).2
  have hnone : readNumber "NULL".toList = none := by decide
  rw [hnull, hnone] at hread
  cases hread

theorem readConstant_intText (n : ℤ) :
    readConstant (.word (intText n)) = some (.number n) := by
  rw [readConstant, if_neg (intText_ne_null n), (whole_intText n).2]
  rfl

theorem means_smallint {n : ℤ} (hn : i16.Fits n) : Means (intText n) "SMALLINT" (.number n) := by
  refine ⟨⟨_, (whole_intText n).1, ?_⟩, by decide⟩
  rw [readConstant_intText, Option.bind_some, castTo, if_neg (by decide), if_pos rfl, castNumber,
    if_pos hn]

theorem means_integer {n : ℤ} (hn : i32.Fits n) {type : String}
    (htype : type = "INTEGER" ∨ type = "integer") : Means (intText n) type (.number n) := by
  have hcast : castTo (word type) (.number n) = castNumber i32 (.number n) := by
    rcases htype with rfl | rfl
    · rfl
    · rfl
  refine ⟨⟨_, (whole_intText n).1, ?_⟩, ?_⟩
  · rw [readConstant_intText, Option.bind_some, hcast, castNumber, if_pos hn]
  · rcases htype with rfl | rfl
    · decide
    · decide

/-- A text that is a constant, but no number. -/
def isText (text : List Char) : Bool :=
  match lex text with
  | some [.literal _] => (run .code text).2.settled
  | some [.word word] => word = "NULL".toList && (run .code text).2.settled
  | _ => false

theorem means_text {text : List Char} (h : isText text = true) :
    Means text "VARCHAR" ((constantOf text).getD .null) := by
  have htype : Reads (" AS ".toList ++ "VARCHAR".toList ++ [')'])
    [word "AS", word "VARCHAR", .symbol ')'] := by decide
  unfold isText at h
  split at h
  · next value hlex =>
    rw [constantOf, hlex]
    exact ⟨⟨_, ⟨h, hlex⟩, rfl⟩, htype⟩
  · next word hlex =>
    obtain ⟨hword, hsettled⟩ := Bool.and_eq_true_iff.1 h
    obtain rfl : word = "NULL".toList := by simpa using hword
    rw [constantOf, hlex]
    exact ⟨⟨_, ⟨hsettled, hlex⟩, rfl⟩, htype⟩
  · cases h

/-! ## Rows -/

/-- What is read behind the last column of a row. -/
def endRow (row : List SqlValue) : List Token → Option (List (List SqlValue) × List Token)
  | comma :: opening :: rest =>
    if comma = .symbol ',' ∧ opening = .symbol '(' then
      (readValues [] rest).map fun (rows, rest) => (row :: rows, rest)
    else some ([row], comma :: opening :: rest)
  | rest => some ([row], rest)

/-- The tokens of a cast. -/
def castTokens (constant : Token) (type : String) : List Token :=
  [word "CAST", .symbol '(', constant, word "AS", word type, .symbol ')']

section Read

variable {row : List SqlValue} {constant : Token} {type : String} {value : SqlValue}

theorem readValues_comma (h : (readConstant constant).bind (castTo (word type)) = some value)
    (rest : List Token) :
    readValues row (castTokens constant type ++ .symbol ',' :: rest) =
      readValues (row ++ [value]) rest := by
  have hcast : readCast (word "CAST") (.symbol '(') constant (word "AS") (word type)
      (.symbol ')') = some value := by
    rw [readCast, if_pos ⟨rfl, rfl, rfl, rfl⟩, h]
  rw [castTokens]
  simp only [List.cons_append, List.nil_append]
  rw [readValues, hcast]
  exact if_pos rfl

theorem readValues_close (h : (readConstant constant).bind (castTo (word type)) = some value)
    (rest : List Token) :
    readValues row (castTokens constant type ++ .symbol ')' :: rest) =
      endRow (row ++ [value]) rest := by
  have hcast : readCast (word "CAST") (.symbol '(') constant (word "AS") (word type)
      (.symbol ')') = some value := by
    rw [readCast, if_pos ⟨rfl, rfl, rfl, rfl⟩, h]
  rw [castTokens]
  simp only [List.cons_append, List.nil_append]
  rw [readValues, hcast]
  dsimp only
  rw [if_neg (by decide), if_pos rfl]
  rcases rest with _ | ⟨comma, _ | ⟨opening, rest⟩⟩
  · rfl
  · rfl
  · rfl

end Read

/-- The columns of a row, by induction on them. -/
theorem readValues_casts {casts : List (List Char × String)} {values : List SqlValue}
    (h : List.Forall₂ (fun cast value => Means cast.1 cast.2 value) casts values)
    (hne : casts ≠ []) :
    ∃ tokens, Reads (separated (casts.map castText)) tokens ∧ ∀ row rest,
      readValues row (tokens ++ .symbol ')' :: rest) = endRow (row ++ values) rest := by
  have hcomma : Reads [','] [.symbol ','] := rfl
  induction h with
  | nil => exact absurd rfl hne
  | @cons cast value casts values hmeans hrest ih =>
    obtain ⟨⟨token, hwhole, hvalue⟩, htype⟩ := hmeans
    have hcast : Reads (castText cast) (castTokens token cast.2) := by
      have hopen : Reads "CAST(".toList [word "CAST", .symbol '('] := rfl
      have hclose : Reads (' ' :: ("AS ".toList ++ cast.2.toList ++ [')']))
        [word "AS", word cast.2, .symbol ')'] := htype
      have hread := hopen.append (hwhole.reads_append rfl hclose)
      simp only [castText, castTokens]
      rwa [List.append_assoc] at hread
    cases hrest with
    | nil =>
      refine ⟨castTokens token cast.2, hcast, fun row rest => ?_⟩
      exact readValues_close hvalue rest
    | @cons cast' value' casts values hmeans' hrest' =>
      obtain ⟨tokens, hreads, hread⟩ := ih (List.cons_ne_nil _ _)
      refine ⟨castTokens token cast.2 ++ .symbol ',' :: tokens, hcast.append (hcomma.append hreads),
        fun row rest => ?_⟩
      rw [List.append_assoc, List.cons_append, readValues_comma hvalue, hread, List.append_assoc]
      rfl

/-- The texts of a row are constants, and its numbers are in the range of their types. -/
structure TypeRow.Written (row : TypeRow) : Prop where
  texts : ∀ text ∈ [row.columns.typeName.toList,
    row.info.literalPrefix.map fun b => Char.ofNat b.toNat,
    row.info.literalSuffix.map fun b => Char.ofNat b.toNat, row.columns.createParams.toList,
    row.info.localTypeName.map fun b => Char.ofNat b.toNat], isText text = true
  smallints : ∀ n ∈ [row.dataType, row.info.nullable, row.info.caseSensitive, row.info.searchable,
    row.info.unsignedAttribute, row.info.fixedPrecScale, row.columns.autoUniqueValue,
    row.info.minimumScale, row.columns.maximumScale, row.info.sqlDataType, row.info.sqlDatetimeSub,
    row.info.intervalPrecision], i16.Fits n
  integers : ∀ n ∈ [(row.info.columnSize : ℤ), row.info.numPrecRadix], i32.Fits n

instance (row : TypeRow) : Decidable row.Written :=
  decidable_of_iff (_ ∧ _ ∧ _) ⟨fun h => ⟨h.1, h.2.1, h.2.2⟩, fun h => ⟨h.1, h.2, h.3⟩⟩

theorem written_of_mem : ∀ row ∈ supportedSqlTypes, row.Written := by decide +kernel

theorem TypeRow.Written.means {row : TypeRow} (h : row.Written) :
    List.Forall₂ (fun cast value => Means cast.1 cast.2 value) row.casts row.values := by
  obtain ⟨htexts, hsmallints, hintegers⟩ := h
  simp only [List.forall_mem_cons] at htexts hsmallints hintegers
  obtain ⟨hname, hprefix, hsuffix, hparams, hlocal, -⟩ := htexts
  obtain ⟨htype, hnull, hcase, hsearch, hunsigned, hfixed, hauto, hmin, hmax, hsql, hsub, hinterval,
    -⟩ := hsmallints
  obtain ⟨hsize, hradix, -⟩ := hintegers
  exact .cons (means_text hname) <| .cons (means_smallint htype) <|
    .cons (means_integer hsize (.inl rfl)) <| .cons (means_text hprefix) <|
    .cons (means_text hsuffix) <| .cons (means_text hparams) <| .cons (means_smallint hnull) <|
    .cons (means_smallint hcase) <| .cons (means_smallint hsearch) <|
    .cons (means_smallint hunsigned) <| .cons (means_smallint hfixed) <|
    .cons (means_smallint hauto) <| .cons (means_text hlocal) <| .cons (means_smallint hmin) <|
    .cons (means_smallint hmax) <| .cons (means_smallint hsql) <| .cons (means_smallint hsub) <|
    .cons (means_integer hradix (.inr rfl)) <| .cons (means_smallint hinterval) .nil

theorem endRow_last {row : List SqlValue} {rest : List Token}
    (hrest : rest.head? ≠ some (.symbol ',')) : endRow row rest = some ([row], rest) := by
  rcases rest with _ | ⟨comma, _ | ⟨opening, rest⟩⟩
  · rfl
  · rfl
  · exact if_neg fun hand => hrest (by rw [hand.1]; rfl)

theorem endRow_next (row : List SqlValue) (rest : List Token) :
    endRow row (.symbol ',' :: .symbol '(' :: rest) =
      (readValues [] rest).map fun (rows, rest) => (row :: rows, rest) := by
  rw [endRow.eq_def]
  exact if_pos ⟨rfl, rfl⟩

/-- The rows, by induction on them. -/
theorem readValues_rows {rows : List TypeRow} (hrows : ∀ row ∈ rows, row.Written)
    (hne : rows ≠ []) :
    ∃ tokens, Reads (writeInfoTypesToQueryString rows) (.symbol '(' :: tokens) ∧ ∀ rest,
      rest.head? ≠ some (.symbol ',') →
        readValues [] (tokens ++ rest) = some (rows.map TypeRow.values, rest) := by
  have hopen : Reads ['('] [.symbol '('] := rfl
  have hclose : Reads [')'] [.symbol ')'] := rfl
  have hcomma : Reads [','] [.symbol ','] := rfl
  induction rows with
  | nil => exact absurd rfl hne
  | cons row rows ih =>
    obtain ⟨hrow, hrows⟩ := List.forall_mem_cons.1 hrows
    obtain ⟨tokens, hreads, hread⟩ := readValues_casts hrow.means (List.cons_ne_nil _ _)
    have hwrite : Reads row.write (.symbol '(' :: (tokens ++ [.symbol ')'])) :=
      hopen.append (hreads.append hclose)
    cases rows with
    | nil =>
      refine ⟨tokens ++ [.symbol ')'], ?_, fun rest hrest => ?_⟩
      · rw [writeInfoTypesToQueryString_singleton]
        exact hwrite
      · rw [List.append_assoc, List.singleton_append, hread, endRow_last hrest]
        rfl
    | cons row' rows =>
      obtain ⟨tokens', hreads', hread'⟩ := ih hrows (List.cons_ne_nil _ _)
      refine ⟨(tokens ++ [.symbol ')']) ++ .symbol ',' :: .symbol '(' :: tokens', ?_,
        fun rest hrest => ?_⟩
      · rw [writeInfoTypesToQueryString_cons]
        exact hwrite.append (hcomma.append hreads')
      · rw [List.append_assoc, List.append_assoc, List.singleton_append, hread, List.cons_append,
          List.cons_append, endRow_next, hread' rest hrest]
        rfl

/-- The tokens of the names of the columns. -/
def nameTokens : List (List Char) → List Token
  | [] => []
  | [name] => [.identifier name, .symbol ')']
  | name :: names => .identifier name :: .symbol ',' :: nameTokens names

/-- The line of a name, with what stands behind its quotes. -/
def nameLine (name : List Char) (behind : String) : List Char :=
  "\n\t\t\"".toList ++ (name ++ ("\"" ++ behind).toList)

/-- The lines of the names. -/
def nameLines : List (List Char) → List Char
  | [] => []
  | [name] => nameLine name "\n\t)"
  | name :: names => nameLine name "," ++ nameLines names

set_option maxRecDepth 20000 in
-- compared with the list that the literal is made of, for its bytes are slow to decode
theorem asOdbcTypes_eq :
    asOdbcTypes = "\n\t) AS odbc_types (".toList ++ nameLines columnNames :=
  String.toList_ofList

theorem reads_nameLine : ∀ name ∈ columnNames,
    Reads (nameLine name ",") [.identifier name, .symbol ','] ∧
      Reads (nameLine name "\n\t)") [.identifier name, .symbol ')'] := by
  decide +kernel

theorem reads_nameLines {names : List (List Char)} (hsub : names ⊆ columnNames) :
    Reads (nameLines names) (nameTokens names) := by
  induction names with
  | nil => rfl
  | cons name names ih =>
    obtain ⟨hcomma, hlast⟩ := reads_nameLine name (hsub List.mem_cons_self)
    cases names with
    | nil => exact hlast
    | cons name' names =>
      exact hcomma.append (ih fun _ hmem => hsub (List.mem_cons_of_mem _ hmem))

theorem reads_asOdbcTypes : Reads asOdbcTypes
    (.symbol ')' :: word "AS" :: word "odbc_types" :: .symbol '(' :: nameTokens columnNames) := by
  have hopen : Reads "\n\t) AS odbc_types (".toList
    [.symbol ')', word "AS", word "odbc_types", .symbol '('] := by decide
  rw [asOdbcTypes_eq]
  exact hopen.append (reads_nameLines (List.Subset.refl _))

theorem readNames_columnNames : readNames (nameTokens columnNames) = some columnNames := by
  decide +kernel

theorem reads_select : Reads "SELECT * FROM (VALUES ".toList
    [word "SELECT", .symbol '*', word "FROM", .symbol '(', word "VALUES"] := by
  decide

/-- A list of no rows is no list. -/
theorem readQuery_nil : (lex ("SELECT * FROM (VALUES ".toList ++
    (writeInfoTypesToQueryString [] ++ asOdbcTypes))).bind readQuery = none := by
  have hall := (reads_select.append reads_asOdbcTypes).whole.tokens
  have hempty : writeInfoTypesToQueryString [] ++ asOdbcTypes = asOdbcTypes :=
    List.nil_append asOdbcTypes
  rw [hempty, hall, Option.bind_some, readQuery]
  exact if_neg (by simp [word])

theorem readQuery_rows {rows : List TypeRow} (hrows : ∀ row ∈ rows, row.Written) (hne : rows ≠ []) :
    (lex ("SELECT * FROM (VALUES ".toList ++
      (writeInfoTypesToQueryString rows ++ asOdbcTypes))).bind readQuery =
        some (columnNames, rows.map TypeRow.values) := by
  obtain ⟨tokens, hreads, hread⟩ := readValues_rows hrows hne
  have hall := (reads_select.append (hreads.append reads_asOdbcTypes)).whole.tokens
  have hend := hread (.symbol ')' :: word "AS" :: word "odbc_types" :: .symbol '(' ::
    nameTokens columnNames) (by decide)
  rw [hall, Option.bind_some, readQuery]
  refine (if_pos rfl).trans ?_
  change (readValues [] (tokens ++ _)).bind _ = _
  rw [hend, Option.bind_some]
  refine (if_pos rfl).trans ?_
  change (readNames (nameTokens columnNames)).map _ = _
  rw [readNames_columnNames]
  rfl

/-- What the engine reads in the query are the rows of the type, in their order, under the names
of the columns. There is nothing to read for a type without a row. -/
theorem getTypeInfo_reads (dataType : ℤ) :
    (lex (getTypeInfoQuery dataType)).bind readQuery =
      if rowsOf dataType = [] then none
      else some (columnNames, (rowsOf dataType).map TypeRow.values) := by
  rw [getTypeInfoQuery_eq]
  by_cases hnil : rowsOf dataType = []
  · rw [if_pos hnil, hnil]
    exact readQuery_nil
  · rw [if_neg hnil]
    refine readQuery_rows (fun row hrow => written_of_mem row ?_) hnil
    rw [rowsOf] at hrow
    by_cases hall : dataType = sqlAllTypes
    · rwa [if_pos hall] at hrow
    · rw [if_neg hall] at hrow
      exact (List.mem_filter.1 hrow).1

end HaybarnOdbc.TypeInfo
