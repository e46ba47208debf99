import HaybarnOdbc.Lib.Outcome
import HaybarnOdbc.Lib.SqlLex
import HaybarnOdbc.OdbcUtils

/-!
# The conditions of the catalog functions

`SQLTables` and `SQLColumns` put their arguments into the text of a query : `ParseStringFilter`
writes one condition for each, a pattern between quotes or an identifier if
`SQL_ATTR_METADATA_ID` is set, and the `GetQueryDuckdb…` functions join them with `AND`. The engine
reads the query as a C string.

A quote in a pattern is not doubled, and an identifier has the `ESCAPE` of the patterns behind it,
so that a condition is right only if its argument is empty or a pattern without quotes
(`catalog_queries_iff`). An identifier in quotes ends in an exception.
-/

namespace HaybarnOdbc.Catalog

open SqlLex Outcome

/-! ## Identifiers -/

/-- `^(".*"|'.*')$`, whose dot is any char but the ends of lines. -/
def isQuoted : List Char → Bool
  | '"' :: text => text.getLast? == some '"' && text.all fun ch => ch != '\n' && ch != '\r'
  | '\'' :: text => text.getLast? == some '\'' && text.all fun ch => ch != '\n' && ch != '\r'
  | _ => false

/-- `regex_replace` of ` +$|( ) +` by its group : blanks at the end go, blanks in a row become
one. -/
def replaceBlanks : List Char → List Char
  | [] => []
  | ch :: text =>
    if ch = ' ' ∧ (text.head? = none ∨ text.head? = some ' ') then replaceBlanks text
    else ch :: replaceBlanks text

/-- `StringUtil::Upper`. -/
def upper (str : List Char) : List Char := str.map Char.toUpper

/-- `OdbcUtils::GetStringAsIdentifier`. What is in quotes is cut out of `str_ret`, which is still
empty. -/
def getStringAsIdentifier (str : List Char) : Except String (List Char) :=
  if isQuoted str then .error "out_of_range" else .ok (upper (replaceBlanks str))

/-! ## Conditions -/

/-- The escape character of Power Query SDK. -/
def escapeClause : List Char := " ESCAPE '\\'".toList

/-- What `ParseStringFilter` writes before the escape character. -/
def filterText (filterName filterValue : List Char) (metadataId : Bool) (coalesceStr : List Char) :
    Except String (List Char) :=
  if filterValue.isEmpty then
    if coalesceStr.isEmpty then
      .ok ("COALESCE(".toList ++ filterName ++ ",'') LIKE  '%'".toList)
    else
      .ok ("COALESCE(".toList ++ filterName ++ ",'".toList ++ coalesceStr ++ "') LIKE '".toList ++
        coalesceStr ++ "'".toList)
  else if metadataId then
    (getStringAsIdentifier filterValue).map fun name => filterName ++ "=".toList ++ name
  else .ok (filterName ++ " LIKE '".toList ++ filterValue ++ "'".toList)

/-- `OdbcUtils::ParseStringFilter`. -/
def parseStringFilter (filterName filterValue : List Char) (metadataId : Bool)
    (coalesceStr : List Char) : Except String (List Char) :=
  (filterText filterName filterValue metadataId coalesceStr).map (· ++ escapeClause)

/-- The catalog of `ColumnsInternal`, which ignores a pattern. -/
def columnsCatalogFilter (catalog : List Char) (metadataId : Bool) : Except String (List Char) :=
  if catalog.isEmpty then .ok "\"TABLE_CAT\" IS NULL".toList
  else if metadataId then (getStringAsIdentifier catalog).map ("\"TABLE_CAT\"=".toList ++ ·)
  else .ok []

/-! ## Queries -/

/-- The `SELECT` of `GetQueryDuckdbColumns`, by lines. -/
def columnsSelect : List String :=
  ["",
    "        SELECT * EXCLUDE (mapping, data_type_no_typmod)",
    "        FROM (",
    "            SELECT NULL::VARCHAR AS \"TABLE_CAT\",",
    "            SCHEMA_NAME AS \"TABLE_SCHEM\",",
    "            TABLE_NAME AS \"TABLE_NAME\",",
    "            COLUMN_NAME AS \"COLUMN_NAME\",",
    "            MAP \x7b",
    "                'BOOLEAN': 1, -- SQL_CHAR",
    "                'TINYINT': -6, -- SQL_TINYINT",
    "                'UTINYINT': -6, -- SQL_TINYINT",
    "                'SMALLINT': 5, -- SQL_SMALLINT",
    "                'USMALLINT': 5, -- SQL_SMALLINT",
    "                'INTEGER': 4, -- SQL_INTEGER",
    "                'UINTEGER': 4, -- SQL_INTEGER",
    "                'BIGINT': -5, -- SQL_BIGINT",
    "                'UBIGINT': -5, -- SQL_BIGINT",
    "                'HUGEINT': 2, -- SQL_NUMERIC",
    "                'UHUGEINT': 2, -- SQL_NUMERIC",
    "                'FLOAT': 6, -- SQL_FLOAT",
    "                'DOUBLE': 8, -- SQL_DOUBLE",
    "                'DATE': 91, -- SQL_TYPE_DATE",
    "                'TIME': 92, -- SQL_TYPE_TIME",
    "                'VARCHAR': 12, -- SQL_VARCHAR",
    "                'BLOB': -3, -- SQL_VARBINARY",
    "                'INTERVAL': 10, -- SQL_INTERVAL",
    "                'DECIMAL': 2, -- SQL_NUMERIC",
    "                'BIT': -7, -- SQL_BIT",
    "                'LIST': 12 -- SQL_VARCHAR",
    "            \x7d AS mapping,",
    "            STRING_SPLIT(data_type, '(')[1] AS data_type_no_typmod,",
    "            CASE",
    "                -- value 93 is SQL_TIMESTAMP",
    "                -- TODO: investigate why map key with spaces and regexes don't work",
    "                WHEN data_type LIKE 'TIMESTAMP%' THEN 93::SMALLINT",
    "                WHEN mapping[data_type_no_typmod] IS NOT NULL THEN mapping[data_type_no_typmod]::SMALLINT",
    "                ELSE data_type_id::SMALLINT",
    "            END AS \"DATA_TYPE\",",
    "            CASE",
    "                WHEN data_type_no_typmod = 'DECIMAL' THEN 'NUMERIC'",
    "                WHEN data_type LIKE 'TIMESTAMP%' THEN 'TIMESTAMP'",
    "                ELSE data_type_no_typmod",
    "            END AS \"TYPE_NAME\",",
    "            CASE",
    "                WHEN data_type='DATE' THEN 12",
    "                WHEN data_type='TIME' THEN 15",
    "                WHEN data_type LIKE 'TIMESTAMP%' THEN 26",
    "                WHEN data_type='CHAR'",
    "                    OR data_type='BOOLEAN' THEN 1",
    "                WHEN data_type='VARCHAR'",
    "                    OR data_type='BLOB' THEN character_maximum_length",
    "                WHEN data_type LIKE '%INT%' THEN numeric_precision",
    "                WHEN data_type like 'DECIMAL%' THEN numeric_precision",
    "                WHEN data_type='FLOAT'",
    "                    OR data_type='DOUBLE' THEN numeric_precision",
    "                ELSE NULL",
    "            END AS \"COLUMN_SIZE\",",
    "            CASE",
    "                WHEN data_type='DATE' THEN 4",
    "                WHEN data_type LIKE 'TIMESTAMP%' THEN 8",
    "                WHEN data_type LIKE 'TIME%' THEN 8 ",
    "                WHEN data_type='CHAR'",
    "                    OR data_type='BOOLEAN' THEN 1",
    "                WHEN data_type='VARCHAR'",
    "                    OR data_type='BLOB' THEN 16",
    "                WHEN data_type LIKE '%TINYINT' THEN 1",
    "                WHEN data_type LIKE '%SMALLINT' THEN 2",
    "                WHEN data_type LIKE '%INTEGER' THEN 4",
    "                WHEN data_type LIKE '%BIGINT' THEN 8",
    "                WHEN data_type='HUGEINT' THEN 16",
    "                WHEN data_type like 'DECIMAL%' THEN 16",
    "                WHEN data_type='FLOAT' THEN 4",
    "                WHEN data_type='DOUBLE' THEN 8",
    "                ELSE NULL",
    "            END AS \"BUFFER_LENGTH\",",
    "            numeric_scale::SMALLINT AS \"DECIMAL_DIGITS\",",
    "            numeric_precision_radix::SMALLINT \"NUM_PREC_RADIX\",",
    "            CASE is_nullable",
    "                WHEN FALSE THEN 0::SMALLINT",
    "                WHEN TRUE THEN 1::SMALLINT",
    "                ELSE 2::SMALLINT",
    "            END AS \"NULLABLE\",",
    "            '' AS \"REMARKS\",",
    "            column_default AS \"COLUMN_DEF\",",
    "            CASE",
    "                WHEN data_type LIKE 'TIMESTAMP%' THEN 93::SMALLINT",
    "                WHEN mapping[data_type_no_typmod] IS NOT NULL THEN mapping[data_type_no_typmod]::SMALLINT",
    "                ELSE data_type_id::SMALLINT",
    "            END AS \"SQL_DATA_TYPE\",",
    "            CASE",
    "                WHEN data_type='DATE' then 1::SMALLINT",
    "                WHEN data_type LIKE 'TIMESTAMP%' THEN 3::SMALLINT",
    "                WHEN data_type LIKE 'TIME%' THEN 2::SMALLINT",
    "                ELSE NULL::SMALLINT",
    "            END AS \"SQL_DATETIME_SUB\",",
    "            CASE",
    "                WHEN data_type='%CHAR'",
    "                     OR data_type='BLOB' THEN character_maximum_length",
    "                ELSE NULL",
    "            END AS \"CHAR_OCTET_LENGTH\",",
    "            column_index AS \"ORDINAL_POSITION\",",
    "            CASE is_nullable",
    "                WHEN FALSE THEN 'NO'",
    "                WHEN TRUE THEN 'YES'",
    "                ELSE ''",
    "            END AS \"IS_NULLABLE\"",
    "            FROM duckdb_columns",
    "        )"]

/-- Its `ORDER BY`. -/
def columnsOrder : List String :=
  ["",
    "\t\tORDER BY",
    "\t\t\t\"TABLE_CAT\",",
    "\t\t\t\"TABLE_SCHEM\",",
    "\t\t\t\"TABLE_NAME\",",
    "\t\t\t\"ORDINAL_POSITION\""]

/-- The `SELECT` of `GetQueryDuckdbTables`, by lines. -/
def tablesSelect : List String :=
  ["",
    "\t\tSELECT",
    "\t\t\ttable_catalog::VARCHAR \"TABLE_CAT\",",
    "\t\t\ttable_schema::VARCHAR \"TABLE_SCHEM\",",
    "\t\t\ttable_name::VARCHAR \"TABLE_NAME\",",
    "\t\t\tCASE",
    "\t\t\t\tWHEN table_type='BASE TABLE'",
    "\t\t\t\tTHEN 'TABLE'::VARCHAR",
    "\t\t\t\tELSE table_type::VARCHAR",
    "\t\t\tEND \"TABLE_TYPE\",",
    "\t\t\t''::VARCHAR \"REMARKS\"",
    "\t\t\tFROM information_schema.tables"]

/-- Lines of a query, each with the end of its line. -/
def textOf (lines : List String) : List Char := lines.flatMap fun line => line.toList ++ ['\n']

/-- A condition that may be absent, and what joins it to the next one. -/
def joined (filter : List Char) : List Char :=
  if filter.isEmpty then [] else filter ++ " AND ".toList

/-- `OdbcUtils::GetQueryDuckdbColumns`. -/
def getQueryDuckdbColumns (catalogFilter schemaFilter tableFilter columnFilter : List Char) :
    List Char :=
  textOf columnsSelect ++ "\t WHERE ".toList ++ joined catalogFilter ++ joined schemaFilter ++
    joined tableFilter ++ columnFilter ++ textOf columnsOrder ++ ['\t']

/-- The restriction of `GetQueryDuckdbTables` to a list of table types. -/
def typeRestriction (tableTypeFilter : List Char) : List Char :=
  if tableTypeFilter ≠ [] ∧ tableTypeFilter ≠ "'%'".toList then
    "\n AND table_type IN (".toList ++ tableTypeFilter ++ ") ".toList
  else []

/-- What comes after the conditions. -/
def tablesRest (tableTypeFilter : List Char) : List Char :=
  typeRestriction tableTypeFilter ++ "\n AND table_catalog NOT LIKE '__ducklake_%' ".toList ++
    "\n ORDER BY TABLE_TYPE, TABLE_CATALOG, TABLE_SCHEMA, TABLE_NAME".toList

/-- `OdbcUtils::GetQueryDuckdbTables`. -/
def getQueryDuckdbTables (catalogFilter schemaFilter tableFilter tableTypeFilter : List Char) :
    List Char :=
  textOf tablesSelect ++ "\t WHERE ".toList ++ catalogFilter ++ "\n AND ".toList ++ schemaFilter ++
    "\n AND ".toList ++ tableFilter ++ tablesRest tableTypeFilter

/-- The query of `TablesInternal`, but for its special cases. -/
def tablesQuery (metadataId : Bool) (catalog schema table tableType : List Char) :
    Except String (List Char) := do
  let catalogFilter ← parseStringFilter "\"TABLE_CAT\"".toList catalog metadataId []
  let schemaFilter ← parseStringFilter "\"TABLE_SCHEM\"".toList schema metadataId []
  let tableFilter ← parseStringFilter "\"TABLE_NAME\"".toList table metadataId []
  .ok (getQueryDuckdbTables catalogFilter schemaFilter tableFilter tableType)

/-- The query of `ColumnsInternal`. -/
def columnsQuery (metadataId : Bool) (catalog schema table column : List Char) :
    Except String (List Char) := do
  let catalogFilter ← columnsCatalogFilter catalog metadataId
  let schemaFilter ← parseStringFilter "\"TABLE_SCHEM\"".toList schema metadataId "main".toList
  let tableFilter ← parseStringFilter "\"TABLE_NAME\"".toList table metadataId []
  let columnFilter ← parseStringFilter "\"COLUMN_NAME\"".toList column metadataId []
  .ok (getQueryDuckdbColumns catalogFilter schemaFilter tableFilter columnFilter)

/-! ## What a condition has to mean -/

/-- A name that needs no quotes. -/
def isIdentifier : List Char → Bool
  | [] => false
  | ch :: text =>
    isWordChar ch && !ch.isDigit && ch != '.' && text.all fun ch => isWordPart ch && ch != '.'

/-- The name that an argument stands for : what is in its quotes, or else its text without the
blanks at its end, in upper case. -/
def identifierOf (arg : List Char) : List Char :=
  if isQuoted arg then arg.tail.dropLast else upper (arg.rdropWhile (· == ' '))

section Conditions

variable (reserved : List Char → Bool)

/-- The token is a name. The engine takes a word for one but for the `reserved` ones : its
keywords, and what has a space beyond ASCII in it. -/
def IsName (name : List Char) : Token → Prop
  | .word text => text = name ∧ isIdentifier name = true ∧ reserved name = false
  | .symbol _ => False
  | .literal value => value = name
  | .identifier value => value = name

/-- The token of a word of the query. -/
def word (text : String) : Token := .word text.toList

/-- `LIKE`, a pattern and the escape character. -/
def likeTokens (pattern : List Char) : List Token :=
  [word "LIKE", .literal pattern, word "ESCAPE", .literal ['\\']]

/-- The conditions on a column that an argument of a catalog function can ask for. -/
inductive Condition (metadataId : Bool) (column coalesceStr arg : List Char) : List Token → Prop
  | default (harg : arg = []) :
    Condition metadataId column coalesceStr arg
      ([word "COALESCE", .symbol '(', .identifier column, .symbol ',', .literal coalesceStr,
        .symbol ')'] ++ likeTokens (if coalesceStr = [] then ['%'] else coalesceStr))
  | pattern (harg : arg ≠ []) (hid : metadataId = false) :
    Condition metadataId column coalesceStr arg (.identifier column :: likeTokens arg)
  | identifier (harg : arg ≠ []) (hid : metadataId = true) {token : Token}
    (hname : IsName reserved (identifierOf arg) token) :
    Condition metadataId column coalesceStr arg [.identifier column, .symbol '=', token]

/-- What `SQLColumns` asks of the catalog, up to the next condition. -/
inductive CatalogCondition (metadataId : Bool) (arg : List Char) : List Token → Prop
  | absent (harg : arg = []) :
    CatalogCondition metadataId arg
      [.identifier "TABLE_CAT".toList, word "IS", word "NULL", word "AND"]
  | ignored (harg : arg ≠ []) (hid : metadataId = false) : CatalogCondition metadataId arg []
  | identifier (harg : arg ≠ []) (hid : metadataId = true) {token : Token}
    (hname : IsName reserved (identifierOf arg) token) :
    CatalogCondition metadataId arg
      [.identifier "TABLE_CAT".toList, .symbol '=', token, word "AND"]

/-- `ParseStringFilter` returns a text that is read as the condition that its argument asks for. -/
def IsPredicate (metadataId : Bool) (column coalesceStr arg : List Char) (tokens : List Token) :
    Prop :=
  (∃ text, parseStringFilter (quote .double column) arg metadataId coalesceStr = .ok text ∧
    lexC text = some tokens) ∧ Condition reserved metadataId column coalesceStr arg tokens

/-- The filter of the catalog is empty or read as the condition that its argument asks for. -/
def IsCatalogPredicate (metadataId : Bool) (arg : List Char) (tokens : List Token) : Prop :=
  (∃ text, columnsCatalogFilter arg metadataId = .ok text ∧ lexC (joined text) = some tokens) ∧
    CatalogCondition reserved metadataId arg tokens

/-- The tokens of a text of the driver. -/
def tokensOf (text : List Char) : List Token := (run .code text).1

/-- Every argument of `SQLTables` is a condition of its own, and they are all that the arguments
add to the query, with any table types behind them. -/
def TablesMeet (metadataId : Bool) (catalog schema table : List Char) : Prop :=
  ∃ catalogTokens schemaTokens tableTokens,
    IsPredicate reserved metadataId "TABLE_CAT".toList [] catalog catalogTokens ∧
    IsPredicate reserved metadataId "TABLE_SCHEM".toList [] schema schemaTokens ∧
    IsPredicate reserved metadataId "TABLE_NAME".toList [] table tableTokens ∧
    ∀ tableType, ∃ query,
      tablesQuery metadataId catalog schema table tableType = .ok query ∧
      lexC query = (lexC (tablesRest tableType)).map fun rest =>
        tokensOf (textOf tablesSelect) ++ word "WHERE" :: (catalogTokens ++
          word "AND" :: (schemaTokens ++ word "AND" :: (tableTokens ++ rest)))

/-- The same of `SQLColumns`. -/
def ColumnsMeet (metadataId : Bool) (catalog schema table column : List Char) : Prop :=
  ∃ catalogTokens schemaTokens tableTokens columnTokens,
    IsCatalogPredicate reserved metadataId catalog catalogTokens ∧
    IsPredicate reserved metadataId "TABLE_SCHEM".toList "main".toList schema schemaTokens ∧
    IsPredicate reserved metadataId "TABLE_NAME".toList [] table tableTokens ∧
    IsPredicate reserved metadataId "COLUMN_NAME".toList [] column columnTokens ∧
    ∃ query, columnsQuery metadataId catalog schema table column = .ok query ∧
      lexC query = some (tokensOf (textOf columnsSelect) ++ word "WHERE" :: (catalogTokens ++
        (schemaTokens ++ word "AND" :: (tableTokens ++ word "AND" :: (columnTokens ++
          tokensOf (textOf columnsOrder))))))

/-- An argument that `ParseStringFilter` can handle. -/
def Plain (metadataId : Bool) (arg : List Char) : Prop :=
  arg = [] ∨ metadataId = false ∧ '\'' ∉ arg ∧ '\x00' ∉ arg

/-- A catalog that `SQLColumns` can handle : not an identifier, or one that needs no quotes and
has none. -/
def PlainCatalog (metadataId : Bool) (arg : List Char) : Prop :=
  arg = [] ∨ metadataId = false ∨
    isQuoted arg = false ∧ isIdentifier (identifierOf arg) = true ∧
      reserved (identifierOf arg) = false

end Conditions

/-! ## Conditions that are right -/

/-- Doubling the marks adds no other character. -/
theorem mem_doubled {mark : Mark} {ch : Char} {value : List Char} :
    ch ∈ doubled mark value ↔ ch ∈ value := by
  induction value with
  | nil => rfl
  | cons c value ih =>
    by_cases hc : c = mark.char
    · simp [doubled, hc, ih]
    · simp [doubled, hc, ih]

/-- A text without marks stays as it is. -/
theorem doubled_of_notMem {mark : Mark} {value : List Char} (h : mark.char ∉ value) :
    doubled mark value = value := by
  induction value with
  | nil => rfl
  | cons c value ih =>
    have hc : c ≠ mark.char := fun heq => h (heq ▸ List.mem_cons_self)
    rw [doubled, if_neg hc, ih fun hmem => h (List.mem_cons_of_mem _ hmem)]

/-- Quoting brings in no NUL. -/
theorem notMem_quote {mark : Mark} {value : List Char} (h : '\x00' ∉ value) :
    '\x00' ∉ quote mark value := by
  have hmark : '\x00' ≠ mark.char := by
    cases mark with
    | single => decide
    | double => decide
  simp [quote, mem_doubled, h, hmark]

/-- The clause ends the literal in front of it. -/
theorem follows_escapeClause : Follows escapeClause [word "ESCAPE", .literal ['\\']] :=
  ⟨⟨rfl, rfl⟩, rfl⟩

/-- A text that consists of the tokens and has no NUL in it. -/
structure Sound (text : List Char) (tokens : List Token) : Prop extends Whole text tokens where
  noNul : '\x00' ∉ text

namespace Sound

/-- A sound text is read as its tokens. -/
theorem lexC {text : List Char} {tokens : List Token} (h : Sound text tokens) :
    SqlLex.lexC text = some tokens := by
  rw [lexC_of_notMem h.noNul, h.tokens]

/-- What joins the text to the next one is read apart from both. -/
theorem lexC_append {a sep : List Char} {tokens tokens' : List Token} (h : Sound a tokens)
    (hreads : Reads sep tokens') (hsep : sep.head?.map isSeparator = some true)
    (hnul : '\x00' ∉ sep) (b : List Char) :
    SqlLex.lexC (a ++ (sep ++ b)) =
      (SqlLex.lexC b).map fun rest => tokens ++ (tokens' ++ rest) := by
  cases sep with
  | nil => cases hsep
  | cons ch sep =>
    rw [List.cons_append, h.toWhole.lexC_append h.noNul (Option.some.inj hsep),
      ← List.cons_append, hreads.lexC_append hnul, Option.map_map]
    rfl

end Sound

/-- A quoted column is an identifier. -/
theorem sound_quote {column : List Char} (h : '\x00' ∉ column) :
    Sound (quote .double column) [.identifier column] :=
  ⟨whole_quote .double column, notMem_quote h⟩

/-- Without an argument the condition takes every value. -/
theorem sound_default {column coalesceStr : List Char} (hcolumn : '\x00' ∉ column)
    (hcoalesce : coalesceStr = [] ∨ coalesceStr = "main".toList) (metadataId : Bool) :
    ∃ text tokens, parseStringFilter (quote .double column) [] metadataId coalesceStr = .ok text ∧
      Sound text tokens ∧
      tokens = [word "COALESCE", .symbol '(', .identifier column, .symbol ',',
        .literal coalesceStr, .symbol ')'] ++
          likeTokens (if coalesceStr = [] then ['%'] else coalesceStr) := by
  have hopen : Reads "COALESCE(".toList [word "COALESCE", .symbol '('] := rfl
  have hname := whole_quote .double column
  have hnul := @notMem_quote .double column hcolumn
  rcases hcoalesce with rfl | rfl
  · have hrest : Follows (",'') LIKE  '%'".toList ++ escapeClause)
        ([.symbol ',', .literal [], .symbol ')'] ++ likeTokens ['%']) := ⟨⟨rfl, rfl⟩, rfl⟩
    have hwhole := hopen.append_whole (hname.append_follows hrest)
    refine ⟨_, _, ?_, ⟨hwhole, ?_⟩, rfl⟩
    · simp [parseStringFilter, filterText, Except.map]
    · simp only [List.mem_append, not_or]
      exact ⟨by decide, hnul, by decide, by decide⟩
  · have hrest : Follows (",'".toList ++ "main".toList ++ "') LIKE '".toList ++ "main".toList ++
        "'".toList ++ escapeClause)
        ([.symbol ',', .literal "main".toList, .symbol ')'] ++ likeTokens "main".toList) :=
      ⟨⟨rfl, rfl⟩, rfl⟩
    have hwhole := hopen.append_whole (hname.append_follows hrest)
    refine ⟨_, _, ?_, ⟨hwhole, ?_⟩, rfl⟩
    · simp [parseStringFilter, filterText, Except.map]
    · simp only [List.mem_append, not_or]
      exact ⟨by decide, hnul, by decide, by decide⟩

/-- The argument is put between quotes as it is. -/
theorem parseStringFilter_pattern {column coalesceStr arg : List Char} (harg : arg ≠ []) :
    parseStringFilter (quote .double column) arg false coalesceStr =
      .ok (quote .double column ++ (" LIKE ".toList ++ '\'' :: (arg ++ '\'' :: escapeClause))) := by
  simp [parseStringFilter, filterText, harg, Except.map]

/-- A pattern without quotes is a literal of the condition. -/
theorem sound_pattern {column coalesceStr arg : List Char} (hcolumn : '\x00' ∉ column)
    (harg : arg ≠ []) (hquote : '\'' ∉ arg) (hnul : '\x00' ∉ arg) :
    ∃ text, parseStringFilter (quote .double column) arg false coalesceStr = .ok text ∧
      Sound text (.identifier column :: likeTokens arg) := by
  have hlike : Reads " LIKE ".toList [word "LIKE"] := rfl
  have hliteral : quote .single arg ++ escapeClause = '\'' :: (arg ++ '\'' :: escapeClause) := by
    simp [quote, @doubled_of_notMem .single arg hquote, Mark.char]
  have hwhole := (whole_quote .double column).append_follows (hlike.append_follows rfl
    ((whole_quote .single arg).append_follows follows_escapeClause))
  refine ⟨_, parseStringFilter_pattern harg, ?_⟩
  rw [← hliteral]
  refine ⟨hwhole, ?_⟩
  simp only [List.mem_append, not_or]
  exact ⟨notMem_quote hcolumn, by decide, notMem_quote hnul, by decide⟩

/-! ## Patterns with quotes -/

/-- Doubling adds a character for every mark. -/
theorem length_doubled (mark : Mark) (value : List Char) :
    (doubled mark value).length = value.length + value.count mark.char := by
  induction value with
  | nil => rfl
  | cons ch value ih =>
    by_cases hch : ch = mark.char
    · subst hch
      simp [doubled, ih]
      omega
    · simp [doubled, hch, ih]
      omega

/-- Where in the escape clause a pattern can end, the quotes of the clause are read in another
way. -/
theorem escapeClause_drop {n : ℕ} {rest : List Char}
    (hdrop : ('\'' :: escapeClause).drop n = '\'' :: rest)
    (hrest : lex rest = some [word "ESCAPE", .literal ['\\']]) : n = 0 := by
  have hall : ∀ n : Fin 12, (('\'' :: escapeClause).drop n).head? = some '\'' →
      lex (('\'' :: escapeClause).drop n).tail = some [word "ESCAPE", .literal ['\\']] →
      n = 0 := by decide
  have hlt : n < 12 := by
    by_contra hn
    have hnil : ('\'' :: escapeClause).drop n = [] :=
      List.drop_eq_nil_of_le (Nat.le_trans (by decide) (Nat.le_of_not_lt hn))
    rw [hnil] at hdrop
    cases hdrop
  have hzero := hall ⟨n, hlt⟩ (by rw [hdrop]; rfl) (by rw [hdrop]; exact hrest)
  exact congrArg Fin.val hzero

/-- A literal that the pattern is read as has no quote or NUL of the pattern in it. -/
theorem notMem_of_lexC_pattern {arg : List Char}
    (h : lexC ('\'' :: (arg ++ '\'' :: escapeClause)) =
      some [.literal arg, word "ESCAPE", .literal ['\\']]) : '\'' ∉ arg ∧ '\x00' ∉ arg := by
  have hcut : lexC ('\'' :: (arg ++ '\'' :: escapeClause)) =
      lexFrom (.quoted .single []) ((arg ++ '\'' :: escapeClause).takeWhile (· ≠ '\x00')) := by
    have happend := lexC_append (a := ['\'']) (by decide) (arg ++ '\'' :: escapeClause)
    have hstep : step .code '\'' = ([], .quoted .single []) := rfl
    rw [List.singleton_append, List.singleton_append, lex, lexFrom_cons, hstep] at happend
    rw [happend]
    exact Option.map_id'
  rw [hcut] at h
  obtain ⟨value, rest, htext, htoken, hrest⟩ := exists_of_lexFrom_quoted .single h
  obtain rfl : arg = value := Token.literal.inj htoken
  have hnul : '\x00' ∉ arg := by
    intro hmem
    have htake : '\x00' ∈ (arg ++ '\'' :: escapeClause).takeWhile (· ≠ '\x00') := by
      rw [htext]
      exact List.mem_append_left _ (mem_doubled.2 hmem)
    simpa using List.mem_takeWhile_imp htake
  refine ⟨fun hquote => ?_, hnul⟩
  have hwhole : (arg ++ '\'' :: escapeClause).takeWhile (· ≠ '\x00') =
      arg ++ '\'' :: escapeClause := by
    refine List.takeWhile_eq_self_iff.2 fun ch hmem => decide_eq_true ?_
    rintro rfl
    rcases List.mem_append.1 hmem with hmem | hmem
    · exact hnul hmem
    · exact absurd hmem (by decide)
  rw [hwhole] at htext
  -- the pattern ends as many chars later as it has quotes
  have hdrop := congrArg (List.drop (doubled .single arg).length) htext
  rw [List.drop_left, length_doubled, List.drop_length_add_append] at hdrop
  have hzero := escapeClause_drop hdrop hrest
  exact absurd hzero (Nat.pos_iff_ne_zero.1 (List.count_pos_iff.2 hquote))

/-! ## Identifiers are never read back -/

/-- Nothing but blanks are no name. -/
theorem replaceBlanks_replicate (n : ℕ) : replaceBlanks (List.replicate n ' ') = [] := by
  induction n with
  | zero => rfl
  | succ n ih =>
    have hhead : (List.replicate n ' ').head? = none ∨ (List.replicate n ' ').head? = some ' ' := by
      cases n with
      | zero => exact .inl rfl
      | succ n => exact .inr rfl
    rw [List.replicate_succ, replaceBlanks, if_pos ⟨rfl, hhead⟩, ih]

/-- Blanks at the end are taken off. -/
theorem replaceBlanks_of_notMem {text : List Char} (h : ' ' ∉ text) (n : ℕ) :
    replaceBlanks (text ++ List.replicate n ' ') = text := by
  induction text with
  | nil => exact replaceBlanks_replicate n
  | cons ch text ih =>
    have hch : ch ≠ ' ' := fun heq => h (heq ▸ List.mem_cons_self)
    rw [List.cons_append, replaceBlanks, if_neg fun hand => hch hand.1,
      ih fun hmem => h (List.mem_cons_of_mem _ hmem)]

theorem length_replaceBlanks_le (text : List Char) (n : ℕ) :
    (replaceBlanks (text ++ List.replicate n ' ')).length ≤ text.length := by
  induction text with
  | nil => rw [List.nil_append, replaceBlanks_replicate]
  | cons ch text ih =>
    rw [List.cons_append, replaceBlanks, List.length_cons]
    split
    · exact Nat.le_succ_of_le ih
    · exact Nat.succ_le_succ ih

/-- What is before the last blanks of a text. -/
theorem exists_rdropWhile (arg : List Char) :
    ∃ n, arg = arg.rdropWhile (· == ' ') ++ List.replicate n ' ' := by
  refine ⟨(arg.rtakeWhile (· == ' ')).length, ?_⟩
  have hblanks : arg.rtakeWhile (· == ' ') =
      List.replicate (arg.rtakeWhile (· == ' ')).length ' ' :=
    List.eq_replicate_of_mem fun ch hmem => by
      have hblank := List.mem_rtakeWhile_imp hmem
      exact beq_iff_eq.1 hblank
  rw [← hblanks]
  exact List.rdropWhile_append_rtakeWhile.symm

/-- What is left is no longer than the text without them. -/
theorem length_replaceBlanks (arg : List Char) :
    (replaceBlanks arg).length ≤ (arg.rdropWhile (· == ' ')).length := by
  obtain ⟨n, harg⟩ := exists_rdropWhile arg
  have hle := length_replaceBlanks_le (arg.rdropWhile (· == ' ')) n
  rwa [← harg] at hle

/-- Without blanks inside nothing else changes. -/
theorem replaceBlanks_eq {arg : List Char} (h : ' ' ∉ arg.rdropWhile (· == ' ')) :
    replaceBlanks arg = arg.rdropWhile (· == ' ') := by
  obtain ⟨n, harg⟩ := exists_rdropWhile arg
  have heq := replaceBlanks_of_notMem h n
  rwa [← harg] at heq

/-- A name is a word without a dot that begins with no digit. -/
theorem isIdentifier_iff {name : List Char} : isIdentifier name = true ↔
    ∃ ch text, name = ch :: text ∧ isWordChar ch = true ∧ ch.isDigit = false ∧ ch ≠ '.' ∧
      ∀ c ∈ text, isWordPart c = true ∧ c ≠ '.' := by
  cases name with
  | nil => simp [isIdentifier]
  | cons ch text => simp [isIdentifier, and_assoc]

/-- Such a name is read as a word. -/
theorem sound_identifier {name : List Char} (h : isIdentifier name = true) :
    Sound name [.word name] := by
  obtain ⟨ch, text, rfl, hch, -, -, htext⟩ := isIdentifier_iff.1 h
  refine ⟨whole_of_isWordPart hch fun c hmem => (htext c hmem).1, fun hmem => ?_⟩
  rcases List.mem_cons.1 hmem with rfl | hmem
  · exact absurd hch (by decide)
  · exact absurd (htext _ hmem).1 (by decide)

theorem blank_notMem_of_isIdentifier {name : List Char} (h : isIdentifier name = true) :
    ' ' ∉ name := by
  obtain ⟨ch, text, rfl, hch, -, -, htext⟩ := isIdentifier_iff.1 h
  intro hmem
  rcases List.mem_cons.1 hmem with rfl | hmem
  · exact absurd hch (by decide)
  · exact absurd (htext _ hmem).1 (by decide)

/-- A name is not longer than what it is read from. -/
theorem IsName.length_le {reserved : List Char → Bool} {name : List Char} {token : Token}
    (h : IsName reserved name token) : name.length ≤ token.size := by
  cases token with
  | word text => exact (h.1 ▸ Nat.le_refl _ : name.length ≤ text.length)
  | symbol ch => exact h.elim
  | literal value => exact (h ▸ Nat.le_add_right _ 2 : name.length ≤ value.length + 2)
  | identifier value => exact (h ▸ Nat.le_add_right _ 2 : name.length ≤ value.length + 2)

/-- The escape clause adds tokens, unless it is in a comment. -/
theorem lexFrom_escapeClause {mode : Mode} {tokens : List Token}
    (h : lexFrom mode escapeClause = some tokens) :
    2 ≤ tokens.length ∨ mode = .lineComment ∧ tokens = [] := by
  have hclause : escapeClause = [' ', 'E', 'S', 'C', 'A', 'P', 'E', ' ', '\'', '\\', '\''] := rfl
  rw [hclause] at h
  by_cases hmode : mode.settled = true
  · obtain ⟨pending, -, hstep⟩ := @step_separator _ hmode ' ' rfl
    have hrest : lexFrom (start ' ').2 ['E', 'S', 'C', 'A', 'P', 'E', ' ', '\'', '\\', '\''] =
        some [word "ESCAPE", .literal ['\\']] := rfl
    rw [lexFrom_cons, hstep, hrest] at h
    obtain rfl := Option.some.inj h
    refine .inl ?_
    simp only [List.length_append, List.length_cons, List.length_nil]
    omega
  · cases mode with
    | code | word | closing => exact absurd rfl hmode
    | quoted mark value =>
      cases mark with
      | single =>
        simp [lexFrom, run, step, restart, start, isBlank, isWordChar, Mark.char, finish] at h
      | double => simp [lexFrom, run, step, Mark.char, finish] at h
    | dash =>
      obtain rfl := Option.some.inj h
      exact .inl (by decide)
    | slash =>
      obtain rfl := Option.some.inj h
      exact .inl (by decide)
    | lineComment =>
      obtain rfl := Option.some.inj h
      exact .inr ⟨rfl, rfl⟩
    | comment depth => simp [lexFrom, run, step, finish] at h
    | commentStar depth => simp [lexFrom, run, step, finish] at h
    | commentSlash depth => simp [lexFrom, run, step, finish] at h
    | failed => simp [lexFrom, run, step, finish] at h

theorem length_takeWhile_lt {p : Char → Bool} {a : List Char} {ch : Char} (hmem : ch ∈ a)
    (hp : p ch = false) (b : List Char) : ((a ++ b).takeWhile p).length < a.length := by
  induction a with
  | nil => cases hmem
  | cons c a ih =>
    rw [List.cons_append, List.takeWhile_cons]
    split
    · rename_i hc
      rcases List.mem_cons.1 hmem with rfl | hmem
      · exact absurd hc (hp ▸ Bool.false_ne_true)
      · exact Nat.succ_lt_succ (ih hmem)
    · exact Nat.succ_pos _

/-- Before the escape clause no text is read as a single name that is as long as it. -/
theorem lexC_append_escapeClause {reserved : List Char → Bool} {name text : List Char}
    (hlength : text.length ≤ name.length) (heq : ' ' ∉ name → text = name) {token : Token}
    (hname : IsName reserved name token) : lexC (text ++ escapeClause) ≠ some [token] := by
  intro h
  have hsize : size [token] = token.size := by simp [size]
  have htoken := hname.length_le
  by_cases hnul : '\x00' ∈ text
  · -- the engine stops inside of the text
    have hlt := length_takeWhile_lt (p := fun ch => decide (ch ≠ '\x00')) hnul (by decide)
      escapeClause
    have hle := size_lex h
    omega
  · have hcut : lexC (text ++ escapeClause) = lex (text ++ escapeClause) := by
      rw [lexC_append hnul]
      rfl
    rw [hcut, lex, lexFrom_append] at h
    obtain ⟨tokens, htokens, hall⟩ := Option.map_eq_some_iff.1 h
    have hcount := congrArg List.length hall
    rw [List.length_append, List.length_singleton] at hcount
    rcases lexFrom_escapeClause htokens with htwo | ⟨hmode, rfl⟩
    · omega
    · rw [List.append_nil] at hall
      have hrun := size_run .code text
      rw [hall, hsize] at hrun
      have hzero : Mode.size .code = 0 := rfl
      cases token with
      | word value =>
        have hsound := sound_identifier hname.2.1
        have htext := heq (blank_notMem_of_isIdentifier hname.2.1)
        have hsettled := hsound.settled
        rw [← htext, hmode] at hsettled
        cases hsettled
      | symbol ch => exact hname
      | literal value =>
        obtain rfl : value = name := hname
        simp only [Token.size] at hrun
        omega
      | identifier value =>
        obtain rfl : value = name := hname
        simp only [Token.size] at hrun
        omega

/-- Without quotes the name is the text in upper case. -/
theorem identifierOf_of_not_isQuoted {arg : List Char} (h : isQuoted arg = false) :
    identifierOf arg = upper (arg.rdropWhile (· == ' ')) := by
  rw [identifierOf, h, if_neg Bool.false_ne_true]

theorem upper_replaceBlanks_length_le {arg : List Char} (h : isQuoted arg = false) :
    (upper (replaceBlanks arg)).length ≤ (identifierOf arg).length := by
  rw [identifierOf_of_not_isQuoted h, upper, upper, List.length_map, List.length_map]
  exact length_replaceBlanks arg

/-- The code agrees on the names that have no blank inside. -/
theorem upper_replaceBlanks_eq {arg : List Char} (h : isQuoted arg = false)
    (hblank : ' ' ∉ identifierOf arg) : upper (replaceBlanks arg) = identifierOf arg := by
  rw [identifierOf_of_not_isQuoted h] at hblank ⊢
  rw [replaceBlanks_eq fun hmem => hblank (List.mem_map.2 ⟨' ', hmem, rfl⟩)]

/-- The identifier behind the sign of equality. -/
theorem lexC_equals {column rest : List Char} (hcolumn : '\x00' ∉ column) :
    lexC (quote .double column ++ ('=' :: rest)) =
      (lexC rest).map fun tokens => .identifier column :: .symbol '=' :: tokens := by
  have hequals : Reads ['='] [.symbol '='] := rfl
  exact (sound_quote hcolumn).lexC_append hequals rfl (by decide) rest

/-- With `METADATA_ID` no argument makes a predicate. -/
theorem not_isPredicate_of_metadataId {reserved : List Char → Bool}
    {column coalesceStr arg : List Char} {tokens : List Token} (hcolumn : '\x00' ∉ column)
    (harg : arg ≠ []) : ¬IsPredicate reserved true column coalesceStr arg tokens := by
  rintro ⟨⟨text, hparse, hlex⟩, hcondition⟩
  obtain ⟨filter, hfilter, rfl⟩ := map_eq_ok.1 hparse
  have hempty : arg.isEmpty = false := by simp [harg]
  rw [filterText, hempty, if_neg Bool.false_ne_true, if_pos rfl] at hfilter
  obtain ⟨name, hname, rfl⟩ := map_eq_ok.1 hfilter
  cases hquoted : isQuoted arg with
  | true =>
    rw [getStringAsIdentifier, hquoted, if_pos rfl] at hname
    cases hname
  | false =>
    rw [getStringAsIdentifier, hquoted, if_neg Bool.false_ne_true] at hname
    obtain rfl := Except.ok.inj hname
    have htext : quote .double column ++ "=".toList ++ upper (replaceBlanks arg) ++ escapeClause =
        quote .double column ++ '=' :: (upper (replaceBlanks arg) ++ escapeClause) := by
      simp
    rw [htext, lexC_equals hcolumn] at hlex
    obtain ⟨rest, hrest, htokens⟩ := Option.map_eq_some_iff.1 hlex
    cases hcondition with
    | default hnil => exact harg hnil
    | pattern _ hid => cases hid
    | identifier _ _ hisName =>
      obtain rfl := (List.cons.inj (List.cons.inj htokens).2).2
      exact lexC_append_escapeClause (upper_replaceBlanks_length_le hquoted)
        (upper_replaceBlanks_eq hquoted) hisName hrest

/-! ## Every condition -/

/-- Every plain argument makes one. -/
theorem sound_of_plain {metadataId : Bool} {arg : List Char} (h : Plain metadataId arg)
    (column coalesceStr : List Char) (hcolumn : '\x00' ∉ column)
    (hcoalesce : coalesceStr = [] ∨ coalesceStr = "main".toList) (reserved : List Char → Bool) :
    ∃ text tokens, parseStringFilter (quote .double column) arg metadataId coalesceStr = .ok text ∧
      Sound text tokens ∧ Condition reserved metadataId column coalesceStr arg tokens := by
  by_cases harg : arg = []
  · subst harg
    obtain ⟨text, tokens, hparse, hsound, rfl⟩ := sound_default hcolumn hcoalesce metadataId
    exact ⟨text, _, hparse, hsound, .default rfl⟩
  · obtain ⟨rfl, hquote, hnul⟩ := h.resolve_left harg
    obtain ⟨text, hparse, hsound⟩ := @sound_pattern column coalesceStr arg hcolumn harg hquote hnul
    exact ⟨text, _, hparse, hsound, .pattern harg rfl⟩

/-- The predicate is right exactly if the argument is plain. -/
theorem exists_isPredicate_iff {reserved : List Char → Bool} {metadataId : Bool}
    {column coalesceStr arg : List Char} (hcolumn : '\x00' ∉ column)
    (hcoalesce : coalesceStr = [] ∨ coalesceStr = "main".toList) :
    (∃ tokens, IsPredicate reserved metadataId column coalesceStr arg tokens) ↔
      Plain metadataId arg := by
  constructor
  · rintro ⟨tokens, hpredicate⟩
    by_cases harg : arg = []
    · exact .inl harg
    · cases metadataId with
      | true => exact absurd hpredicate (not_isPredicate_of_metadataId hcolumn harg)
      | false =>
        obtain ⟨⟨text, hparse, hlex⟩, hcondition⟩ := hpredicate
        rw [parseStringFilter_pattern harg] at hparse
        obtain rfl := Except.ok.inj hparse
        have hlike : Reads " LIKE ".toList [word "LIKE"] := rfl
        rw [(sound_quote hcolumn).lexC_append hlike rfl (by decide)] at hlex
        obtain ⟨rest, hrest, htokens⟩ := Option.map_eq_some_iff.1 hlex
        cases hcondition with
        | default hnil => exact absurd hnil harg
        | identifier _ hid => cases hid
        | pattern =>
          obtain rfl := (List.cons.inj (List.cons.inj htokens).2).2
          exact .inr ⟨rfl, notMem_of_lexC_pattern hrest⟩
  · intro hplain
    obtain ⟨text, tokens, hparse, hsound, hcondition⟩ :=
      sound_of_plain hplain column coalesceStr hcolumn hcoalesce reserved
    exact ⟨tokens, ⟨text, hparse, hsound.lexC⟩, hcondition⟩

/-! ## Every query -/

/-- A text that is made of lines which end in no token. -/
theorem reads_textOf {lines : List String}
    (h : ∀ line ∈ lines, (run .code (line.toList ++ ['\n'])).2 = .code ∧ '\x00' ∉ line.toList) :
    Reads (textOf lines) (tokensOf (textOf lines)) ∧ '\x00' ∉ textOf lines := by
  refine ⟨Prod.ext rfl ?_, fun hmem => ?_⟩
  · induction lines with
    | nil => rfl
    | cons line lines ih =>
      have hline := (h line List.mem_cons_self).1
      rw [textOf, List.flatMap_cons, run_append, hline]
      exact ih fun line hmem => h line (List.mem_cons_of_mem _ hmem)
  · obtain ⟨line, hline, hmem⟩ := List.mem_flatMap.1 hmem
    rcases List.mem_append.1 hmem with hmem | hmem
    · exact (h line hline).2 hmem
    · exact absurd hmem (by decide)

/-- The first lines of the query are read by themselves. -/
theorem reads_tablesSelect :
    Reads (textOf tablesSelect) (tokensOf (textOf tablesSelect)) ∧
      '\x00' ∉ textOf tablesSelect := by
  refine reads_textOf ?_
  unfold tablesSelect
  repeat
    refine List.forall_mem_cons.2 ⟨?_, ?_⟩
    · rw [String.toList_ofList]
      decide +kernel
  exact nofun

/-- So are the last lines of the columns query. -/
theorem reads_columnsOrder :
    Reads (textOf columnsOrder) (tokensOf (textOf columnsOrder)) ∧
      '\x00' ∉ textOf columnsOrder := by
  refine reads_textOf ?_
  unfold columnsOrder
  repeat
    refine List.forall_mem_cons.2 ⟨?_, ?_⟩
    · rw [String.toList_ofList]
      decide +kernel
  exact nofun

/-- So are its first lines. -/
theorem reads_columnsSelect :
    Reads (textOf columnsSelect) (tokensOf (textOf columnsSelect)) ∧
      '\x00' ∉ textOf columnsSelect := by
  refine reads_textOf ?_
  unfold columnsSelect
  repeat
    refine List.forall_mem_cons.2 ⟨?_, ?_⟩
    · rw [String.toList_ofList]
      decide +kernel
  exact nofun

/-- Before the next condition the text ends as it would by itself, but for a comment, which goes
on. -/
theorem lexFrom_and {mode : Mode} {tokens : List Token}
    (h : lexFrom mode " AND ".toList = some tokens) :
    ∃ pending, finish mode = some pending ∧
      (tokens = pending ++ [word "AND"] ∨ tokens = pending) := by
  have hclause : " AND ".toList = [' ', 'A', 'N', 'D', ' '] := rfl
  rw [hclause] at h
  by_cases hmode : mode.settled = true
  · obtain ⟨pending, hpending, hstep⟩ := @step_separator _ hmode ' ' rfl
    have hrest : lexFrom (start ' ').2 ['A', 'N', 'D', ' '] = some [word "AND"] := rfl
    rw [lexFrom_cons, hstep, hrest] at h
    obtain rfl := Option.some.inj h
    exact ⟨pending, hpending, .inl (by simp [start, isBlank])⟩
  · cases mode with
    | code | word | closing => exact absurd rfl hmode
    | quoted mark value =>
      cases mark with
      | single => simp [lexFrom, run, step, Mark.char, finish] at h
      | double => simp [lexFrom, run, step, Mark.char, finish] at h
    | dash | slash =>
      obtain rfl := Option.some.inj h
      exact ⟨_, rfl, .inl rfl⟩
    | lineComment =>
      obtain rfl := Option.some.inj h
      exact ⟨_, rfl, .inr rfl⟩
    | comment depth => simp [lexFrom, run, step, finish] at h
    | commentStar depth => simp [lexFrom, run, step, finish] at h
    | commentSlash depth => simp [lexFrom, run, step, finish] at h
    | failed => simp [lexFrom, run, step, finish] at h

/-- What is read as the name that is as long as the text is a name that needs no quotes. -/
theorem isIdentifier_of_lexC_and {reserved : List Char → Bool} {name text : List Char}
    (hlength : text.length ≤ name.length) {token : Token} (hname : IsName reserved name token)
    (h : lexC (text ++ " AND ".toList) = some [token, word "AND"]) :
    isIdentifier name = true ∧ reserved name = false := by
  have hsize : size [token, word "AND"] = token.size + 3 := by simp [size, word, Token.size]
  have hle := hname.length_le
  have htoken : token.size ≤ text.length := by
    by_cases hnul : '\x00' ∈ text
    · have hlt := length_takeWhile_lt (p := fun ch => decide (ch ≠ '\x00')) hnul (by decide)
        " AND ".toList
      have hall := size_lex h
      omega
    · have hcut : lexC (text ++ " AND ".toList) = lex (text ++ " AND ".toList) := by
        rw [lexC_append hnul]
        rfl
      rw [hcut, lex, lexFrom_append] at h
      obtain ⟨tokens, htokens, hall⟩ := Option.map_eq_some_iff.1 h
      obtain ⟨pending, hpending, hread⟩ := lexFrom_and htokens
      have hwhole : lex text = some ((run .code text).1 ++ pending) := by
        rw [lex, lexFrom, hpending]
        rfl
      have htext := size_lex hwhole
      rw [size_append] at htext
      have hsizes := congrArg size hall
      have hand : size [word "AND"] = 3 := rfl
      rw [hsize, size_append] at hsizes
      rcases hread with rfl | rfl
      · rw [size_append, hand] at hsizes
        omega
      · omega
  cases token with
  | word value => exact hname.2
  | symbol ch => exact hname.elim
  | literal value =>
    obtain rfl : value = name := hname
    simp only [Token.size] at htoken
    omega
  | identifier value =>
    obtain rfl : value = name := hname
    simp only [Token.size] at htoken
    omega

/-- The catalog of the columns is compared, with no escape clause behind it. -/
theorem columnsCatalogFilter_metadataId {catalog : List Char} (h : catalog ≠ []) :
    columnsCatalogFilter catalog true =
      if isQuoted catalog then .error "out_of_range"
      else .ok (quote .double "TABLE_CAT".toList ++ '=' :: upper (replaceBlanks catalog)) := by
  have hempty : catalog.isEmpty = false := by simp [h]
  rw [columnsCatalogFilter, hempty, if_neg Bool.false_ne_true, if_pos rfl, getStringAsIdentifier]
  by_cases hquoted : isQuoted catalog = true
  · rw [if_pos hquoted, if_pos hquoted]
    rfl
  · rw [if_neg hquoted, if_neg hquoted]
    rfl

theorem joined_equals (column name : List Char) :
    joined (quote .double column ++ '=' :: name) =
      quote .double column ++ '=' :: (name ++ " AND ".toList) := by
  simp [joined, quote]

/-- Every plain catalog makes a predicate. -/
theorem reads_of_plainCatalog {reserved : List Char → Bool} {metadataId : Bool}
    {catalog : List Char} (h : PlainCatalog reserved metadataId catalog) :
    ∃ text tokens, columnsCatalogFilter catalog metadataId = .ok text ∧
      Reads (joined text) tokens ∧ '\x00' ∉ joined text ∧
      CatalogCondition reserved metadataId catalog tokens := by
  by_cases hcatalog : catalog = []
  · subst hcatalog
    exact ⟨_, _, rfl, rfl, by decide, .absent rfl⟩
  · have hempty : catalog.isEmpty = false := by simp [hcatalog]
    cases metadataId with
    | false =>
      refine ⟨[], [], ?_, rfl, nofun, .ignored hcatalog rfl⟩
      rw [columnsCatalogFilter, hempty, if_neg Bool.false_ne_true, if_neg Bool.false_ne_true]
    | true =>
      obtain ⟨hquoted, hidentifier, hreserved⟩ := (h.resolve_left hcatalog).resolve_left nofun
      have hname : IsName reserved (identifierOf catalog) (.word (identifierOf catalog)) :=
        ⟨rfl, hidentifier, hreserved⟩
      have htext := columnsCatalogFilter_metadataId hcatalog
      rw [if_neg (hquoted ▸ Bool.false_ne_true),
        upper_replaceBlanks_eq hquoted (blank_notMem_of_isIdentifier hidentifier)] at htext
      have hsound := sound_identifier hidentifier
      have hand : Reads " AND ".toList [word "AND"] := rfl
      have hequals : Reads ['='] [.symbol '='] := rfl
      have hrest : Reads (identifierOf catalog ++ " AND ".toList)
          [.word (identifierOf catalog), word "AND"] := hsound.toWhole.reads_append rfl hand
      have hreads :=
        (whole_quote .double "TABLE_CAT".toList).reads_append rfl (hequals.append hrest)
      refine ⟨_, _, htext, ?_, ?_, .identifier hcatalog rfl hname⟩
      · rw [joined_equals]
        exact hreads
      · rw [joined_equals]
        simp only [List.mem_append, List.mem_cons, not_or]
        exact ⟨by decide, by decide, hsound.noNul, by decide⟩

/-- A catalog makes a predicate just if it is plain. -/
theorem exists_isCatalogPredicate_iff {reserved : List Char → Bool} {metadataId : Bool}
    {catalog : List Char} : (∃ tokens, IsCatalogPredicate reserved metadataId catalog tokens) ↔
      PlainCatalog reserved metadataId catalog := by
  constructor
  · rintro ⟨tokens, ⟨text, htext, hlex⟩, hcondition⟩
    cases hcondition with
    | absent hcatalog => exact .inl hcatalog
    | ignored _ hid => exact .inr (.inl hid)
    | identifier hcatalog hid hname =>
      subst hid
      rw [columnsCatalogFilter_metadataId hcatalog] at htext
      cases hquoted : isQuoted catalog with
      | true =>
        rw [hquoted, if_pos rfl] at htext
        cases htext
      | false =>
        rw [hquoted, if_neg Bool.false_ne_true] at htext
        obtain rfl := Except.ok.inj htext
        rw [joined_equals, lexC_equals (by decide)] at hlex
        obtain ⟨rest, hrest, htokens⟩ := Option.map_eq_some_iff.1 hlex
        obtain rfl := (List.cons.inj (List.cons.inj htokens).2).2
        exact .inr (.inr ⟨hquoted, isIdentifier_of_lexC_and (upper_replaceBlanks_length_le hquoted)
          hname hrest⟩)
  · intro hplain
    obtain ⟨text, tokens, htext, hreads, hnul, hcondition⟩ := reads_of_plainCatalog hplain
    refine ⟨tokens, ⟨text, htext, ?_⟩, hcondition⟩
    rw [lexC_of_notMem hnul, hreads.whole.tokens]

/-- A filter is joined to the next one by an AND. -/
theorem joined_of_parseStringFilter {filterName filterValue coalesceStr text : List Char}
    {metadataId : Bool}
    (h : parseStringFilter filterName filterValue metadataId coalesceStr = .ok text) :
    joined text = text ++ " AND ".toList := by
  rw [parseStringFilter] at h
  obtain ⟨filter, -, rfl⟩ := map_eq_ok.1 h
  have hempty : (filter ++ escapeClause).isEmpty = false := by
    cases filter with
    | nil => rfl
    | cons ch filter => rfl
  rw [joined, hempty, if_neg Bool.false_ne_true]

theorem reads_where : Reads "\t WHERE ".toList [word "WHERE"] := rfl

theorem reads_and : Reads " AND ".toList [word "AND"] := rfl

theorem reads_andOnLine : Reads "\n AND ".toList [word "AND"] := rfl

theorem exists_tablesRest (tableType : List Char) :
    ∃ rest, tablesRest tableType = '\n' :: rest := by
  unfold tablesRest typeRestriction
  split
  · exact ⟨_, rfl⟩
  · exact ⟨_, rfl⟩

/-- Three conditions that end by themselves, and what is behind them. -/
theorem lexC_getQueryDuckdbTables {catalog schema table : List Char}
    {catalogTokens schemaTokens tableTokens : List Token} (hcatalog : Sound catalog catalogTokens)
    (hschema : Sound schema schemaTokens) (htable : Sound table tableTokens)
    (tableType : List Char) :
    lexC (getQueryDuckdbTables catalog schema table tableType) =
      (lexC (tablesRest tableType)).map fun rest =>
        tokensOf (textOf tablesSelect) ++ word "WHERE" :: (catalogTokens ++
          word "AND" :: (schemaTokens ++ word "AND" :: (tableTokens ++ rest))) := by
  obtain ⟨rest, hrest⟩ := exists_tablesRest tableType
  simp only [getQueryDuckdbTables, List.append_assoc]
  rw [reads_tablesSelect.1.lexC_append reads_tablesSelect.2, reads_where.lexC_append (by decide),
    hcatalog.lexC_append reads_andOnLine rfl (by decide),
    hschema.lexC_append reads_andOnLine rfl (by decide), hrest,
    htable.toWhole.lexC_append htable.noNul rfl]
  simp only [Option.map_map]
  rfl

/-- Plain arguments make the query they are to make. -/
theorem tablesMeet_of_plain {reserved : List Char → Bool} {metadataId : Bool}
    {catalog schema table : List Char} (hcatalog : Plain metadataId catalog)
    (hschema : Plain metadataId schema) (htable : Plain metadataId table) :
    TablesMeet reserved metadataId catalog schema table := by
  obtain ⟨cat, catTokens, hcat, hcatSound, hcatCondition⟩ :=
    sound_of_plain hcatalog "TABLE_CAT".toList [] (by decide) (.inl rfl) reserved
  obtain ⟨sch, schTokens, hsch, hschSound, hschCondition⟩ :=
    sound_of_plain hschema "TABLE_SCHEM".toList [] (by decide) (.inl rfl) reserved
  obtain ⟨tab, tabTokens, htab, htabSound, htabCondition⟩ :=
    sound_of_plain htable "TABLE_NAME".toList [] (by decide) (.inl rfl) reserved
  refine ⟨catTokens, schTokens, tabTokens, ⟨⟨cat, hcat, hcatSound.lexC⟩, hcatCondition⟩,
    ⟨⟨sch, hsch, hschSound.lexC⟩, hschCondition⟩, ⟨⟨tab, htab, htabSound.lexC⟩, htabCondition⟩,
    fun tableType => ⟨getQueryDuckdbTables cat sch tab tableType, ?_, ?_⟩⟩
  · exact bind_eq_ok.2 ⟨cat, hcat, bind_eq_ok.2 ⟨sch, hsch, bind_eq_ok.2 ⟨tab, htab, rfl⟩⟩⟩
  · exact lexC_getQueryDuckdbTables hcatSound hschSound htabSound tableType

/-- The same for the columns. -/
theorem columnsMeet_of_plain {reserved : List Char → Bool} {metadataId : Bool}
    {catalog schema table column : List Char} (hcatalog : PlainCatalog reserved metadataId catalog)
    (hschema : Plain metadataId schema) (htable : Plain metadataId table)
    (hcolumn : Plain metadataId column) :
    ColumnsMeet reserved metadataId catalog schema table column := by
  obtain ⟨cat, catTokens, hcat, hcatReads, hcatNul, hcatCondition⟩ := reads_of_plainCatalog hcatalog
  obtain ⟨sch, schTokens, hsch, hschSound, hschCondition⟩ :=
    sound_of_plain hschema "TABLE_SCHEM".toList "main".toList (by decide) (.inr rfl) reserved
  obtain ⟨tab, tabTokens, htab, htabSound, htabCondition⟩ :=
    sound_of_plain htable "TABLE_NAME".toList [] (by decide) (.inl rfl) reserved
  obtain ⟨col, colTokens, hcol, hcolSound, hcolCondition⟩ :=
    sound_of_plain hcolumn "COLUMN_NAME".toList [] (by decide) (.inl rfl) reserved
  have hcatLex : lexC (joined cat) = some catTokens := by
    rw [lexC_of_notMem hcatNul, hcatReads.whole.tokens]
  refine ⟨catTokens, schTokens, tabTokens, colTokens, ⟨⟨cat, hcat, hcatLex⟩, hcatCondition⟩,
    ⟨⟨sch, hsch, hschSound.lexC⟩, hschCondition⟩, ⟨⟨tab, htab, htabSound.lexC⟩, htabCondition⟩,
    ⟨⟨col, hcol, hcolSound.lexC⟩, hcolCondition⟩, getQueryDuckdbColumns cat sch tab col, ?_, ?_⟩
  · exact bind_eq_ok.2 ⟨cat, hcat, bind_eq_ok.2 ⟨sch, hsch, bind_eq_ok.2 ⟨tab, htab,
      bind_eq_ok.2 ⟨col, hcol, rfl⟩⟩⟩⟩
  · have htab' : Reads ['\t'] [] := rfl
    have hend := reads_columnsOrder.1.append htab'
    have hnul : '\x00' ∉ textOf columnsOrder ++ ['\t'] := by
      rw [List.mem_append, not_or]
      exact ⟨reads_columnsOrder.2, by decide⟩
    have hlast := hcolSound.lexC_append hend rfl hnul []
    rw [List.append_nil] at hlast
    simp only [getQueryDuckdbColumns, joined_of_parseStringFilter hsch,
      joined_of_parseStringFilter htab, List.append_assoc]
    rw [reads_columnsSelect.1.lexC_append reads_columnsSelect.2,
      reads_where.lexC_append (by decide), hcatReads.lexC_append hcatNul,
      hschSound.lexC_append reads_and rfl (by decide),
      htabSound.lexC_append reads_and rfl (by decide), hlast]
    simp [lexC, lex, lexFrom, run, finish]

/-- The arguments of `SQLTables` are read back as the conditions that they ask for, exactly if
every one is empty or a pattern without quotes and NULs; those of `SQLColumns` as well, whose
catalog may also be a name. -/
theorem catalog_queries_iff (reserved : List Char → Bool) (metadataId : Bool)
    (catalog schema table column : List Char) :
    (TablesMeet reserved metadataId catalog schema table ↔
      Plain metadataId catalog ∧ Plain metadataId schema ∧ Plain metadataId table) ∧
    (ColumnsMeet reserved metadataId catalog schema table column ↔
      PlainCatalog reserved metadataId catalog ∧ Plain metadataId schema ∧
        Plain metadataId table ∧ Plain metadataId column) := by
  refine ⟨⟨?_, ?_⟩, ⟨?_, ?_⟩⟩
  · rintro ⟨cat, sch, tab, hcat, hsch, htab, -⟩
    exact ⟨(exists_isPredicate_iff (by decide) (.inl rfl)).1 ⟨cat, hcat⟩,
      (exists_isPredicate_iff (by decide) (.inl rfl)).1 ⟨sch, hsch⟩,
      (exists_isPredicate_iff (by decide) (.inl rfl)).1 ⟨tab, htab⟩⟩
  · rintro ⟨hcatalog, hschema, htable⟩
    exact tablesMeet_of_plain hcatalog hschema htable
  · rintro ⟨cat, sch, tab, col, hcat, hsch, htab, hcol, -⟩
    exact ⟨exists_isCatalogPredicate_iff.1 ⟨cat, hcat⟩,
      (exists_isPredicate_iff (by decide) (.inr rfl)).1 ⟨sch, hsch⟩,
      (exists_isPredicate_iff (by decide) (.inl rfl)).1 ⟨tab, htab⟩,
      (exists_isPredicate_iff (by decide) (.inl rfl)).1 ⟨col, hcol⟩⟩
  · rintro ⟨hcatalog, hschema, htable, hcolumn⟩
    exact columnsMeet_of_plain hcatalog hschema htable hcolumn

/-- The quote of the table name `a'b` ends the pattern. -/
theorem quote_ends_pattern : ¬TablesMeet (fun _ => false) false [] [] ['a', '\'', 'b'] := by
  rintro ⟨-, -, tab, -, -, htab, -⟩
  have hplain := (exists_isPredicate_iff (by decide) (.inl rfl)).1 ⟨tab, htab⟩
  exact absurd hplain (by unfold Plain; decide)

end HaybarnOdbc.Catalog
