import HaybarnOdbc.TableTypes
import HaybarnOdbc.Like

/-!
# Searching for names

What the conditions of `SQLTables` select in the list of tables of the engine, which evaluates
them with `LIKE`. With arguments that can be put into the text of the query, they select the
tables whose names match the search patterns (`tables_found`), where `\` is the escape character
that `SQLGetInfo` returns for them, so that a name can be searched for by escaping it
(`name_found`). Tables of a catalog that matches `__ducklake_%` are left out.

An argument `%` with the other ones empty asks for the catalogs, the schemas or the table types
instead (`AsksForAll`), which `TablesInternal` answers with queries that look at no table.
-/

namespace HaybarnOdbc.Catalog

open SqlLex Wildcard Like

/-- A row of `information_schema.tables`. -/
structure TableRow where
  tableCatalog : Option (List Char)
  tableSchema : Option (List Char)
  tableName : Option (List Char)

/-- The columns by the names that the `SELECT` of `GetQueryDuckdbTables` gives them, and by their
own. -/
def TableRow.column (row : TableRow) (name : List Char) : Option (List Char) :=
  if name = "TABLE_CAT".toList ∨ name = "table_catalog".toList then row.tableCatalog
  else if name = "TABLE_SCHEM".toList ∨ name = "table_schema".toList then row.tableSchema
  else if name = "TABLE_NAME".toList ∨ name = "table_name".toList then row.tableName
  else none

/-- What follows a value in a condition : a pattern with its escape character, or one that the
value is not to match. `NULL` is not selected. -/
def likeCondition (value : Option (List Char)) : List Token → Option (Except String Bool)
  | [.word like, .literal pattern, .word escape, .literal ch] =>
    if like = "LIKE".toList ∧ escape = "ESCAPE".toList then
      some (value.elim (.ok false) fun name =>
        likeEscapeOperator (utf8.text name) (utf8.text pattern) (utf8.text ch))
    else none
  | [.word not, .word like, .literal pattern] =>
    if not = "NOT".toList ∧ like = "LIKE".toList then
      some (value.elim (.ok false) fun name =>
        (likeOperator (utf8.text name) (utf8.text pattern)).map (!·))
    else none
  | _ => none

/-- The value of a condition for a row. -/
def evaluate (column : List Char → Option (List Char)) : List Token → Option (Except String Bool)
  | .identifier name :: rest => likeCondition (column name) rest
  | .word coalesce :: .symbol '(' :: .identifier name :: .symbol ',' :: .literal value ::
      .symbol ')' :: rest =>
    if coalesce = "COALESCE".toList then likeCondition (some ((column name).getD value)) rest
    else none
  | .word name :: rest => likeCondition (column name) rest
  | _ => none

/-- The search patterns of ODBC, with the `SQL_SEARCH_PATTERN_ESCAPE` of `SQLGetInfo`. -/
def patterns : Syntax Char := ⟨'%', '_', some '\\'⟩

/-- What an argument asks of a name. -/
def Finds (coalesceStr arg : List Char) (value : Option (List Char)) : Prop :=
  if arg = [] then coalesceStr = [] ∨ value.getD coalesceStr = coalesceStr
  else ∃ name, value = some name ∧ Matches (pieces patterns arg).1 name

/-- A pattern that does not end in an escape character with nothing behind it. -/
def Ended (arg : List Char) : Prop := (pieces patterns arg).2 = false

instance (arg : List Char) : Decidable (Ended arg) := inferInstanceAs (Decidable (_ = _))

theorem distinct_patterns : patterns.Distinct := ⟨by decide, by decide⟩

theorem encodes_patterns : utf8.Encodes patterns ⟨0x25, 0x5f, some 0x5c⟩ :=
  ⟨by decide, by decide, by decide⟩

theorem likeEscapeOperator_text (name arg : List Char) :
    likeEscapeOperator (utf8.text name) (utf8.text arg) (utf8.text ['\\']) =
      if Matches (pieces patterns arg).1 name then answer (pieces patterns arg).2
      else .ok false := by
  have hescape : getEscapeChar (utf8.text ['\\']) = .ok 0x5c := by decide
  rw [likeEscapeOperator, hescape]
  exact templatedLikeOperator_text encodes_patterns distinct_patterns arg name

theorem evaluate_default (column : List Char → Option (List Char)) (name value : List Char)
    (rest : List Token) :
    evaluate column ([word "COALESCE", .symbol '(', .identifier name, .symbol ',', .literal value,
      .symbol ')'] ++ rest) = likeCondition (some ((column name).getD value)) rest := by
  simp [evaluate, word]

theorem likeCondition_likeTokens (value : Option (List Char)) (arg : List Char) :
    likeCondition value (likeTokens arg) = some (value.elim (.ok false) fun name =>
      likeEscapeOperator (utf8.text name) (utf8.text arg) (utf8.text ['\\'])) := by
  simp [likeCondition, likeTokens, word]

/-- The condition of an argument selects what the argument asks for. -/
theorem evaluate_condition {reserved : List Char → Bool} {name coalesceStr arg : List Char}
    {tokens : List Token} (h : Condition reserved false name coalesceStr arg tokens)
    (hcoalesce : coalesceStr = [] ∨ coalesceStr = "main".toList) (hended : Ended arg)
    (column : List Char → Option (List Char)) :
    ∃ b, evaluate column tokens = some (.ok b) ∧
      (b = true ↔ Finds coalesceStr arg (column name)) := by
  cases h with
  | default harg =>
    rw [evaluate_default, likeCondition_likeTokens, Option.elim_some, likeEscapeOperator_text]
    have hmain : pieces patterns "main".toList = ("main".toList.map .lit, false) := by decide
    have hall : pieces patterns ['%'] = ([.any], false) := by decide
    rcases hcoalesce with rfl | rfl
    · exact ⟨true, by simp [hall, matches_any_last, answer], by simp [Finds, harg]⟩
    · rw [if_neg (show "main".toList ≠ [] by decide), hmain]
      refine ⟨decide ((column name).getD "main".toList = "main".toList), ?_, ?_⟩
      · by_cases hv : (column name).getD "main".toList = "main".toList
        · rw [if_pos (matches_lit_iff.2 hv), decide_eq_true hv]
          rfl
        · rw [if_neg fun hm => hv (matches_lit_iff.1 hm), decide_eq_false hv]
      · simp [Finds, harg]
  | pattern harg hid =>
    change ∃ b, likeCondition (column name) (likeTokens arg) = _ ∧ _
    rw [likeCondition_likeTokens, Finds, if_neg harg]
    cases hv : column name with
    | none => exact ⟨false, rfl, by simp⟩
    | some value =>
      rw [Option.elim_some, likeEscapeOperator_text]
      refine ⟨decide (Matches (pieces patterns arg).1 value), ?_, by simp⟩
      by_cases hm : Matches (pieces patterns arg).1 value
      · rw [if_pos hm, decide_eq_true hm, show (pieces patterns arg).2 = false from hended]
        rfl
      · rw [if_neg hm, decide_eq_false hm]
  | identifier harg hid => cases hid

/-! ## The queries of `SQLTables` -/

/-- The query for the list of catalogs, by lines. -/
def catalogsSelect : List String :=
  ["",
    "SELECT DISTINCT",
    "\tCAST(catalog_name AS VARCHAR) AS \"TABLE_CAT\",",
    "\tCAST(NULL         AS VARCHAR) AS \"TABLE_SCHEM\",",
    "\tCAST(NULL         AS VARCHAR) AS \"TABLE_NAME\",",
    "\tCAST(NULL         AS VARCHAR) AS \"TABLE_TYPE\",",
    "\tCAST(NULL         AS VARCHAR) AS \"REMARKS\"",
    "FROM information_schema.schemata",
    "WHERE catalog_name NOT IN (",
    "\t'system',",
    "\t'temp')",
    "AND catalog_name NOT LIKE '__ducklake_%'",
    "ORDER BY \"TABLE_CAT\""]

/-- The query for the list of schemas, by lines. -/
def schemasSelect : List String :=
  ["",
    "SELECT",
    "\tCAST(NULL        AS VARCHAR) AS \"TABLE_CAT\",",
    "\tCAST(schema_name AS VARCHAR) AS \"TABLE_SCHEM\",",
    "\tCAST(NULL        AS VARCHAR) AS \"TABLE_NAME\",",
    "\tCAST(NULL        AS VARCHAR) AS \"TABLE_TYPE\",",
    "\tCAST(NULL        AS VARCHAR) AS \"REMARKS\"",
    "FROM information_schema.schemata",
    "WHERE catalog_name NOT IN (",
    "\t'system',",
    "\t'temp')",
    "AND catalog_name NOT LIKE '__ducklake_%'",
    "ORDER BY \"TABLE_SCHEM\""]

/-- The query for the list of table types, by lines. -/
def tableTypesSelect : List String :=
  ["",
    "SELECT",
    "\tCAST(NULL AS VARCHAR) AS \"TABLE_CAT\",",
    "\tCAST(NULL AS VARCHAR) AS \"TABLE_SCHEM\",",
    "\tCAST(NULL AS VARCHAR) AS \"TABLE_NAME\",",
    "\tUNNEST([",
    "\t\tCAST('TABLE' AS VARCHAR),",
    "\t\tCAST('VIEW'  AS VARCHAR)",
    "\t]) AS \"TABLE_TYPE\",",
    "\tCAST(NULL AS VARCHAR) AS \"REMARKS\""]

/-- An argument is the `%` of `SQL_ALL_CATALOGS`, `SQL_ALL_SCHEMAS` or `SQL_ALL_TABLE_TYPES`, and
the other ones are empty. -/
def AsksForAll (arg : List Char) (others : List (List Char)) : Prop :=
  arg = ['%'] ∧ ∀ other ∈ others, other = []

instance (arg : List Char) (others : List (List Char)) : Decidable (AsksForAll arg others) :=
  inferInstanceAs (Decidable (_ ∧ _))

/-- `TablesInternal`, up to the execution of the query. The filters of the special cases are made
too, and can fail. -/
def tablesInternal (metadataId : Bool) (catalog schema table tableType : List Char) :
    Except String (List Char) := do
  let query ← tablesQuery metadataId catalog schema table (rewriteTypes tableType)
  if AsksForAll catalog [schema, table, tableType] then .ok (textOf catalogsSelect)
  else if AsksForAll schema [catalog, table, tableType] then .ok (textOf schemasSelect)
  else if AsksForAll tableType [catalog, schema, table] then .ok (textOf tableTypesSelect)
  else .ok query

/-- A request for tables of any type. -/
theorem tablesInternal_eq_tablesQuery {catalog schema table : List Char} (metadataId : Bool)
    (hcatalogs : ¬AsksForAll catalog [schema, table])
    (hschemas : ¬AsksForAll schema [catalog, table]) :
    tablesInternal metadataId catalog schema table [] =
      tablesQuery metadataId catalog schema table [] := by
  have hnil : rewriteTypes [] = [] := by decide
  have hcat : ¬AsksForAll catalog [schema, table, []] := by simpa [AsksForAll] using hcatalogs
  have hsch : ¬AsksForAll schema [catalog, table, []] := by simpa [AsksForAll] using hschemas
  have htype : ¬AsksForAll [] [catalog, schema, table] := fun h => absurd h.1 (by decide)
  simp only [tablesInternal, hnil, if_neg hcat, if_neg hsch, if_neg htype]
  exact bind_pure _

/-! ## Tables -/

/-- `LIKE` without an escape character. -/
def plainPatterns : Syntax Char := ⟨'%', '_', none⟩

theorem likeOperator_text (name arg : List Char) :
    likeOperator (utf8.text name) (utf8.text arg) =
      if Matches (pieces plainPatterns arg).1 name then answer (pieces plainPatterns arg).2
      else .ok false :=
  templatedLikeOperator_text ⟨by decide, by decide, by decide⟩ ⟨by decide, by decide⟩ arg name

/-- The pattern of the catalogs of DuckLake. -/
def ducklake : List Char := "__ducklake_%".toList

/-- The catalogs that the query leaves out. -/
def Hidden (catalog : Option (List Char)) : Prop :=
  ∃ name, catalog = some name ∧ Matches (pieces plainPatterns ducklake).1 name

/-- The condition of the query on the catalog. -/
def notDucklake : List Token :=
  [word "table_catalog", word "NOT", word "LIKE", .literal ducklake]

/-- The columns that the conditions are about. -/
theorem column_names (row : TableRow) :
    row.column "TABLE_CAT".toList = row.tableCatalog ∧
      row.column "TABLE_SCHEM".toList = row.tableSchema ∧
      row.column "TABLE_NAME".toList = row.tableName ∧
      row.column "table_catalog".toList = row.tableCatalog := by
  refine ⟨if_pos (.inl rfl), ?_, ?_, if_pos (.inr rfl)⟩
  · rw [TableRow.column, if_neg (by decide), if_pos (.inl rfl)]
  · rw [TableRow.column, if_neg (by decide), if_neg (by decide), if_pos (.inl rfl)]

theorem evaluate_notDucklake (row : TableRow) :
    ∃ b, evaluate row.column notDucklake = some (.ok b) ∧
      (b = true ↔ row.tableCatalog ≠ none ∧ ¬Hidden row.tableCatalog) := by
  have hcolumn : evaluate row.column notDucklake =
      some (row.tableCatalog.elim (.ok false) fun name =>
        (likeOperator (utf8.text name) (utf8.text ducklake)).map (!·)) := by
    rw [← (column_names row).2.2.2]
    simp [evaluate, notDucklake, word, likeCondition]
  rw [hcolumn]
  cases hc : row.tableCatalog with
  | none => exact ⟨false, rfl, by simp⟩
  | some name =>
    have hended : (pieces plainPatterns ducklake).2 = false := by decide
    rw [Option.elim_some, likeOperator_text, hended]
    by_cases hm : Matches (pieces plainPatterns ducklake).1 name
    · exact ⟨false, by rw [if_pos hm]; rfl, by simp [Hidden, hm]⟩
    · exact ⟨true, by rw [if_neg hm]; rfl, by simp [Hidden, hm]⟩

/-- What is behind the conditions. -/
def orderTokens : List Token :=
  [word "ORDER", word "BY", word "TABLE_TYPE", .symbol ',', word "TABLE_CATALOG", .symbol ',',
    word "TABLE_SCHEMA", .symbol ',', word "TABLE_NAME"]

/-- Conditions that are joined with `AND`. -/
def conjunction : List (List Token) → List Token
  | [] => []
  | [condition] => condition
  | condition :: conditions => condition ++ word "AND" :: conjunction conditions

/-- Every condition has a value for the row. -/
def Defined (column : List Char → Option (List Char)) (conditions : List (List Token)) : Prop :=
  ∀ condition ∈ conditions, ∃ b, evaluate column condition = some (.ok b)

/-- Every condition holds of the row. -/
def Selects (column : List Char → Option (List Char)) (conditions : List (List Token)) : Prop :=
  ∀ condition ∈ conditions, evaluate column condition = some (.ok true)

theorem lexC_untyped :
    lexC (tablesRest []) = some (word "AND" :: (notDucklake ++ orderTokens)) := by
  have hnot : Reads "\n AND table_catalog NOT LIKE '__ducklake_%' ".toList
      (word "AND" :: notDucklake) := rfl
  have horder : lexC "\n ORDER BY TABLE_TYPE, TABLE_CATALOG, TABLE_SCHEMA, TABLE_NAME".toList =
      some orderTokens := rfl
  have htype : typeRestriction [] = [] := rfl
  rw [tablesRest, htype, List.nil_append, hnot.lexC_append (by decide), horder]
  rfl

/-- An argument of `SQLTables` that is a search pattern. -/
def Searchable (arg : List Char) : Prop := Plain false arg ∧ Ended arg

/-- The conditions of the arguments in the query of `SQLTables`. -/
theorem exists_conditions {catalog schema table : List Char} (hcatalog : Searchable catalog)
    (hschema : Searchable schema) (htable : Searchable table) :
    ∃ query catTokens schTokens tabTokens, tablesQuery false catalog schema table [] = .ok query ∧
      lexC query = some (tokensOf (textOf tablesSelect) ++ word "WHERE" ::
        (conjunction [catTokens, schTokens, tabTokens, notDucklake] ++ orderTokens)) ∧
      Condition (fun _ => false) false "TABLE_CAT".toList [] catalog catTokens ∧
      Condition (fun _ => false) false "TABLE_SCHEM".toList [] schema schTokens ∧
      Condition (fun _ => false) false "TABLE_NAME".toList [] table tabTokens := by
  have hmeet : TablesMeet (fun _ => false) false catalog schema table :=
    tablesMeet_of_plain hcatalog.1 hschema.1 htable.1
  obtain ⟨catTokens, schTokens, tabTokens, ⟨-, hcat⟩, ⟨-, hsch⟩, ⟨-, htab⟩, hquery⟩ := hmeet
  obtain ⟨query, hok, hlex⟩ := hquery []
  refine ⟨query, catTokens, schTokens, tabTokens, hok, ?_, hcat, hsch, htab⟩
  rw [hlex, lexC_untyped]
  simp [conjunction]

/-- The rows that the conditions select. -/
theorem selects_conditions {catalog schema table : List Char} (hcatalog : Ended catalog)
    (hschema : Ended schema) (htable : Ended table) {catTokens schTokens tabTokens : List Token}
    (hcat : Condition (fun _ => false) false "TABLE_CAT".toList [] catalog catTokens)
    (hsch : Condition (fun _ => false) false "TABLE_SCHEM".toList [] schema schTokens)
    (htab : Condition (fun _ => false) false "TABLE_NAME".toList [] table tabTokens)
    (row : TableRow) :
    Defined row.column [catTokens, schTokens, tabTokens, notDucklake] ∧
      (Selects row.column [catTokens, schTokens, tabTokens, notDucklake] ↔
        Finds [] catalog row.tableCatalog ∧ Finds [] schema row.tableSchema ∧
          Finds [] table row.tableName ∧ row.tableCatalog ≠ none ∧ ¬Hidden row.tableCatalog) := by
  obtain ⟨a, ha, hafinds⟩ := evaluate_condition hcat (.inl rfl) hcatalog row.column
  obtain ⟨b, hb, hbfinds⟩ := evaluate_condition hsch (.inl rfl) hschema row.column
  obtain ⟨c, hc, hcfinds⟩ := evaluate_condition htab (.inl rfl) htable row.column
  obtain ⟨d, hd, hdfinds⟩ := evaluate_notDucklake row
  rw [(column_names row).1] at hafinds
  rw [(column_names row).2.1] at hbfinds
  rw [(column_names row).2.2.1] at hcfinds
  constructor
  · simp only [Defined, List.forall_mem_cons]
    exact ⟨⟨a, ha⟩, ⟨b, hb⟩, ⟨c, hc⟩, ⟨d, hd⟩, by simp⟩
  · simp only [Selects, List.forall_mem_cons, ha, hb, hc, hd, Option.some.injEq, Except.ok.injEq]
    rw [hafinds, hbfinds, hcfinds, hdfinds]
    simp

/-- The query of `SQLTables` selects the tables whose catalog, schema and name match the arguments
that are not empty, except for the ones in the catalogs that it leaves out. -/
theorem tables_found {catalog schema table : List Char} (hcatalog : Searchable catalog)
    (hschema : Searchable schema) (htable : Searchable table)
    (hcatalogs : ¬AsksForAll catalog [schema, table])
    (hschemas : ¬AsksForAll schema [catalog, table]) :
    ∃ query conditions, tablesInternal false catalog schema table [] = .ok query ∧
      lexC query = some (tokensOf (textOf tablesSelect) ++ word "WHERE" ::
        (conjunction conditions ++ orderTokens)) ∧
      ∀ row : TableRow, Defined row.column conditions ∧
        (Selects row.column conditions ↔
          Finds [] catalog row.tableCatalog ∧ Finds [] schema row.tableSchema ∧
            Finds [] table row.tableName ∧ row.tableCatalog ≠ none ∧ ¬Hidden row.tableCatalog) := by
  obtain ⟨query, catTokens, schTokens, tabTokens, hok, hlex, hcat, hsch, htab⟩ :=
    exists_conditions hcatalog hschema htable
  rw [tablesInternal_eq_tablesQuery false hcatalogs hschemas]
  exact ⟨query, _, hok, hlex, selects_conditions hcatalog.2 hschema.2 htable.2 hcat hsch htab⟩

/-- The tables with a letter before the `n` of their names, of any schema of the catalog `db`. -/
theorem tables_found_db :
    ∃ query conditions, tablesInternal false "db".toList [] "_n%".toList [] = .ok query ∧
      lexC query = some (tokensOf (textOf tablesSelect) ++ word "WHERE" ::
        (conjunction conditions ++ orderTokens)) ∧
      ∀ row : TableRow, Defined row.column conditions ∧
        (Selects row.column conditions ↔
          Finds [] "db".toList row.tableCatalog ∧ Finds [] [] row.tableSchema ∧
            Finds [] "_n%".toList row.tableName ∧ row.tableCatalog ≠ none ∧
            ¬Hidden row.tableCatalog) :=
  tables_found ⟨.inr (by decide), by decide⟩ ⟨.inl rfl, by decide⟩ ⟨.inr (by decide), by decide⟩
    (by decide) (by decide)

/-! ## Names -/

/-- The argument that a name is searched for with. -/
def escapedName (name : List Char) : List Char := escaped patterns '\\' name

theorem escapedName_cons (ch : Char) (name : List Char) : escapedName (ch :: name) =
    (if ch = '\\' ∨ ch = '_' ∨ ch = '%' then ['\\', ch] else [ch]) ++ escapedName name := rfl

theorem mem_escapedName {name : List Char} {ch : Char} (hch : ch ≠ '\\') :
    ch ∈ escapedName name ↔ ch ∈ name := by
  induction name with
  | nil => exact Iff.rfl
  | cons c name ih =>
    rw [escapedName_cons, List.mem_append, ih, List.mem_cons]
    split <;> simp [hch]

theorem searchable_escapedName {name : List Char} (hquote : '\'' ∉ name) (hnul : '\x00' ∉ name) :
    Searchable (escapedName name) := by
  refine ⟨.inr ⟨rfl, ?_, ?_⟩, ?_⟩
  · rwa [mem_escapedName (by decide)]
  · rwa [mem_escapedName (by decide)]
  · rw [Ended, escapedName, pieces_escaped rfl]

theorem escapedName_ne_nil {name : List Char} (hne : name ≠ []) : escapedName name ≠ [] := by
  cases name with
  | nil => exact absurd rfl hne
  | cons ch name =>
    rw [escapedName_cons]
    split <;> simp

/-- An escaped name is found by itself only. -/
theorem finds_escapedName {name : List Char} (hne : name ≠ []) (value : Option (List Char)) :
    Finds [] (escapedName name) value ↔ value = some name := by
  rw [Finds, if_neg (escapedName_ne_nil hne), escapedName, pieces_escaped rfl]
  simp only [matches_lit_iff]
  constructor
  · rintro ⟨-, rfl, rfl⟩
    rfl
  · rintro rfl
    exact ⟨name, rfl, rfl⟩

/-- A table is found by its names, which are escaped. -/
theorem name_found {catalog schema table : List Char}
    (hnames : ∀ name ∈ [catalog, schema, table], name ≠ [] ∧ '\'' ∉ name ∧ '\x00' ∉ name)
    (hcatalog : ¬Hidden (some catalog)) :
    ∃ query conditions,
      tablesInternal false (escapedName catalog) (escapedName schema) (escapedName table) [] =
        .ok query ∧
      lexC query = some (tokensOf (textOf tablesSelect) ++ word "WHERE" ::
        (conjunction conditions ++ orderTokens)) ∧
      ∀ row : TableRow, Defined row.column conditions ∧
        (Selects row.column conditions ↔ row = ⟨some catalog, some schema, some table⟩) := by
  have hsearchable : ∀ name ∈ [catalog, schema, table], Searchable (escapedName name) :=
    fun name hname => searchable_escapedName (hnames name hname).2.1 (hnames name hname).2.2
  have hfinds : ∀ name ∈ [catalog, schema, table], ∀ value,
      Finds [] (escapedName name) value ↔ value = some name :=
    fun name hname => finds_escapedName (hnames name hname).1
  have hne : ∀ name ∈ [catalog, schema, table], escapedName name ≠ [] :=
    fun name hname => escapedName_ne_nil (hnames name hname).1
  have hcatalogs : ¬AsksForAll (escapedName catalog) [escapedName schema, escapedName table] :=
    fun h => hne table (by simp) (h.2 _ (by simp))
  have hschemas : ¬AsksForAll (escapedName schema) [escapedName catalog, escapedName table] :=
    fun h => hne table (by simp) (h.2 _ (by simp))
  rw [tablesInternal_eq_tablesQuery false hcatalogs hschemas]
  simp only [List.forall_mem_cons] at hsearchable hfinds
  obtain ⟨hcat, hsch, htab, -⟩ := hsearchable
  obtain ⟨hcatFinds, hschFinds, htabFinds, -⟩ := hfinds
  obtain ⟨query, catTokens, schTokens, tabTokens, hok, hlex, hcatTokens, hschTokens, htabTokens⟩ :=
    exists_conditions hcat hsch htab
  have hrows := selects_conditions hcat.2 hsch.2 htab.2 hcatTokens hschTokens htabTokens
  refine ⟨query, _, hok, hlex, fun row => ⟨(hrows row).1, ?_⟩⟩
  rw [(hrows row).2, hcatFinds, hschFinds, htabFinds]
  constructor
  · rintro ⟨hc, hs, ht, -, -⟩
    rw [← hc, ← hs, ← ht]
  · rintro rfl
    exact ⟨rfl, rfl, rfl, by simp, hcatalog⟩

/-- The table `100%` of the schema `main`. -/
theorem name_found_percent :
    ∃ query conditions,
      tablesInternal false (escapedName "db".toList) (escapedName "main".toList)
        (escapedName "100%".toList) [] = .ok query ∧
      lexC query = some (tokensOf (textOf tablesSelect) ++ word "WHERE" ::
        (conjunction conditions ++ orderTokens)) ∧
      ∀ row : TableRow, Defined row.column conditions ∧
        (Selects row.column conditions ↔
          row = ⟨some "db".toList, some "main".toList, some "100%".toList⟩) := by
  refine name_found (by decide) ?_
  rintro ⟨name, hname, hm⟩
  rw [← Option.some.inj hname] at hm
  revert hm
  decide

end HaybarnOdbc.Catalog
