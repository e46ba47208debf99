import HaybarnOdbc.OdbcUtils
import HaybarnOdbc.Types

/-!
# The session init file

`ReadSQLFile` reads a file of at most 1 MiB and cuts it at the connection init marker into a
part for a new database and a part for every connection; `Run` executes them through
`SQLExecDirect`.

The length of a part is passed on as a `SQLSMALLINT`. A part of 32768 bytes or more arrives as
a prefix of itself or not at all, and the call still succeeds. The one long length that is
right by accident is the one that is `SQL_NTS` modulo 2^16 (`run_executes_parts_iff`).
-/

namespace HaybarnOdbc.SessionInit

/-- `SessionInitSQLFile`. -/
structure SqlFile where
  dbInitSql : List Char
  connInitSql : List Char
  origFileText : List Char
  deriving DecidableEq, Repr

/-- `SessionInitSQLFile::SQL_FILE_MAX_SIZE_BYTES`. -/
def sqlFileMaxSizeBytes : ℕ := 1 <<< 20

/-- `SessionInitSQLFile::CONN_INIT_MARKER`, the regular expression. -/
def connInitMarker : String := "/\\*\\s*DUCKDB_CONNECTION_INIT_BELOW_MARKER\\s*\\*/"

/-- `SessionInitSQLFile::IsEmpty`. -/
def SqlFile.isEmpty (f : SqlFile) : Bool :=
  f.dbInitSql.isEmpty && f.connInitSql.isEmpty && f.origFileText.isEmpty

/-! ## Cutting the text -/

/-- The marker at the front of the text, and the text after it. -/
def matchMarker (text : List Char) : Option (List Char) := do
  let text ← "/*".toList.isPrefixOf? text
  let text ← "DUCKDB_CONNECTION_INIT_BELOW_MARKER".toList.isPrefixOf? (text.dropWhile isSpace)
  "*/".toList.isPrefixOf? (text.dropWhile isSpace)

/-- The text before the first marker, and the text after it if there is one. -/
def findMarker : List Char → List Char × Option (List Char)
  | [] => ([], none)
  | ch :: text =>
    match matchMarker (ch :: text) with
    | some rest => ([], some rest)
    | none =>
      let (before, rest) := findMarker text
      (ch :: before, rest)

/-- The text is what `isPrefixOf?` leaves after the part it takes off. -/
theorem append_of_isPrefixOf? {a text rest : List Char} (h : a.isPrefixOf? text = some rest) :
    text = a ++ rest := by
  induction a generalizing text with
  | nil =>
    cases h
    rfl
  | cons ch a ih =>
    cases text with
    | nil => cases h
    | cons ch' text =>
      simp only [List.isPrefixOf?] at h
      split at h
      · next heq =>
        rw [ih h, beq_iff_eq.1 heq]
        rfl
      · cases h

/-- The marker is followed by a proper end of the text. -/
theorem matchMarker_suffix {text rest : List Char} (h : matchMarker text = some rest) :
    rest <:+ text ∧ rest.length < text.length := by
  simp only [matchMarker, Option.bind_eq_bind, Option.bind_eq_some_iff] at h
  obtain ⟨t1, h1, t2, h2, h3⟩ := h
  have hs1 := append_of_isPrefixOf? h1
  have hs2 : t2 <:+ t1 := by
    have hd := append_of_isPrefixOf? h2
    exact (hd ▸ List.suffix_append _ _ : t2 <:+ t1.dropWhile isSpace).trans
      (List.dropWhile_suffix _)
  have hs3 : rest <:+ t2 := by
    have hd := append_of_isPrefixOf? h3
    exact (hd ▸ List.suffix_append _ _ : rest <:+ t2.dropWhile isSpace).trans
      (List.dropWhile_suffix _)
  have hrest := hs3.trans hs2
  refine ⟨hrest.trans (hs1 ▸ List.suffix_append _ _), ?_⟩
  rw [hs1, List.length_append]
  have hle := hrest.length_le
  have hlen : "/*".toList.length = 2 := by decide
  omega

/-- Both parts are made of the chars of the text. -/
theorem findMarker_subset : ∀ text : List Char,
    (findMarker text).1 ⊆ text ∧ ∀ rest, (findMarker text).2 = some rest →
      rest ⊆ text ∧ rest.length < text.length
  | [] => ⟨fun _ h => h, nofun⟩
  | ch :: text => by
    obtain ⟨hbefore, hrest⟩ := findMarker_subset text
    rw [findMarker]
    split
    · next rest heq =>
      have hsuf := matchMarker_suffix heq
      refine ⟨List.nil_subset _, ?_⟩
      rintro _ ⟨⟩
      exact ⟨hsuf.1.subset, hsuf.2⟩
    · refine ⟨List.cons_subset_cons ch hbefore, fun rest h => ?_⟩
      obtain ⟨hsub, hlt⟩ := hrest rest h
      exact ⟨List.subset_cons_of_subset ch hsub, by simp only [List.length_cons]; omega⟩

/-- The tokens after a marker. The text after the last marker is one only if there is any. -/
def tokensAfter (text : List Char) : List (List Char) :=
  match _h : findMarker text with
  | (before, some rest) => before :: tokensAfter rest
  | (before, none) => if before.isEmpty then [] else [before]
  termination_by text.length
  decreasing_by exact ((findMarker_subset text).2 _ (by rw [_h])).2

/-- `SplitByMarker`. -/
def splitByMarker (str : List Char) : List (List Char) :=
  match findMarker str with
  | (before, some rest) => before :: tokensAfter rest
  | (before, none) => [before]

theorem tokensAfter_subset (text : List Char) : ∀ token ∈ tokensAfter text, token ⊆ text := by
  fun_induction tokensAfter text with
  | case1 text before rest hfind ih =>
    obtain ⟨hbefore, hrest⟩ := findMarker_subset text
    rw [hfind] at hbefore hrest
    intro token htoken
    rcases List.mem_cons.1 htoken with rfl | htoken
    · exact hbefore
    · exact List.Subset.trans (ih token htoken) (hrest rest rfl).1
  | case2 text before hfind => nofun
  | case3 text before hfind =>
    have hbefore := (findMarker_subset text).1
    rw [hfind] at hbefore
    intro token htoken
    rw [List.mem_singleton.1 htoken]
    exact hbefore

/-- Every token is made of the chars of the text. -/
theorem splitByMarker_subset {str token : List Char} (h : token ∈ splitByMarker str) :
    token ⊆ str := by
  obtain ⟨hbefore, hrest⟩ := findMarker_subset str
  unfold splitByMarker at h
  split at h
  · next before rest hfind =>
    rw [hfind] at hbefore hrest
    rcases List.mem_cons.1 h with rfl | h
    · exact hbefore
    · exact List.Subset.trans (tokensAfter_subset rest token h) (hrest rest rfl).1
  · next before hfind =>
    rw [hfind] at hbefore
    rw [List.mem_singleton.1 h]
    exact hbefore

theorem trimString_subset (str : List Char) : trimString str ⊆ str :=
  List.Subset.trans (List.rdropWhile_prefix _ _).subset (List.dropWhile_sublist _).subset

/-! ## Reading the file -/

/-- What reading the file uses : the texts of the files that exist, and the hexadecimal SHA-256
of a text. -/
structure Files where
  text : String → Option (List Char)
  sha256 : List Char → String

/-- `ReadSQLFile`. -/
def readSqlFile (files : Files) (sessionInitSqlFile sessionInitSqlFileSha256 : String) :
    Except String SqlFile :=
  if sessionInitSqlFile = "" then .ok ⟨[], [], []⟩
  else
    match files.text sessionInitSqlFile with
    | none => .error ("Specified session init SQL file not found, path: " ++ sessionInitSqlFile)
    | some origFileText =>
      let fileSize := origFileText.length
      if fileSize > sqlFileMaxSizeBytes then
        .error ("Specified session init SQL file size: " ++ toString fileSize ++
          " exceeds max allowed size: " ++ toString sqlFileMaxSizeBytes)
      else if sessionInitSqlFileSha256 ≠ "" ∧
          files.sha256 origFileText ≠ sessionInitSqlFileSha256 then
        .error ("Session init SQL file SHA-256 mismatch, expected: " ++
          String.ofList (lower sessionInitSqlFileSha256.toList) ++ ", actual: " ++
          files.sha256 origFileText)
      else
        match splitByMarker origFileText with
        | [dbPart] => .ok ⟨trimString dbPart, [], origFileText⟩
        | [dbPart, connPart] => .ok ⟨trimString dbPart, trimString connPart, origFileText⟩
        | _ => .error ("Connection init marker: '" ++ connInitMarker ++
            "' can only be specified once")

/-- The parts of a file that was read are made of the chars of its text. -/
theorem parts_subset_of_readSqlFile {files : Files} {file sha : String} {f : SqlFile}
    (h : readSqlFile files file sha = .ok f) :
    f.dbInitSql ⊆ f.origFileText ∧ f.connInitSql ⊆ f.origFileText := by
  unfold readSqlFile at h
  split at h
  · cases h
    exact ⟨fun _ h => h, fun _ h => h⟩
  · split at h
    · cases h
    · next text _ =>
      simp only at h
      split at h
      · cases h
      · split at h
        · cases h
        · split at h
          · next dbPart hsplit =>
            cases h
            exact ⟨List.Subset.trans (trimString_subset _)
              (splitByMarker_subset (by simp [hsplit])),
              List.nil_subset _⟩
          · next dbPart connPart hsplit =>
            cases h
            exact ⟨List.Subset.trans (trimString_subset _)
              (splitByMarker_subset (by simp [hsplit])),
              List.Subset.trans (trimString_subset _) (splitByMarker_subset (by simp [hsplit]))⟩
          · cases h

/-! ## Running it -/

/-- What the statements of a session answer : `SQLAllocHandle`, and `ExecDirectStmt` with the
message that `SQLGetDiagRec` reads after it. -/
structure Session where
  alloc : SqlReturn
  execDirectStmt : List Char → SqlReturn × String

/-- What a run did : its code, the texts that reached `ExecDirectStmt`, and the diagnostic
records it posted on the connection. -/
structure Ran where
  ret : SqlReturn
  executed : List (List Char)
  diags : List DiagRecord

/-- `static_cast<SQLSMALLINT>` of a length. -/
def smallint (n : ℕ) : ℤ :=
  if n % 2 ^ 16 < 2 ^ 15 then (n % 2 ^ 16 : ℕ) else ((n % 2 ^ 16 : ℕ) : ℤ) - 2 ^ 16

/-- The text that reaches `ExecDirectStmt` for a query. -/
def statementText (query : List Char) : List Char :=
  convertSQLCHARToString query (smallint query.length)

/-- `RunQueryWithStmt`. -/
def runQueryWithStmt (w : Session) (query : List Char) : Ran :=
  if !w.alloc.succeeded then
    ⟨w.alloc, [], [⟨"SQLDriverConnect",
      "Connection init error: cannot allocate statement handle, SQL:\n"
      ++ String.ofList query, .stHY000⟩]⟩
  else
    let text := statementText query
    let (execRet, message) := w.execDirectStmt text
    ⟨execRet, [text], if execRet.succeeded then [] else
      [⟨"SQLDriverConnect", "Connection init error:\n" ++ message ++ "\n" ++ String.ofList query,
        .st42000⟩]⟩

/-- A part that is run if it is to be. -/
def runPart (w : Session) (wanted : Bool) (part : List Char) : Ran :=
  if wanted then runQueryWithStmt w part else ⟨.success, [], []⟩

/-- `SessionInit::Run`. -/
def run (w : Session) (f : SqlFile) (dbCreated : Bool) : Ran :=
  let db := runPart w (dbCreated && !f.dbInitSql.isEmpty) f.dbInitSql
  if !db.ret.succeeded then db
  else
    let conn := runPart w (!f.connInitSql.isEmpty) f.connInitSql
    if !conn.ret.succeeded then ⟨conn.ret, db.executed ++ conn.executed, db.diags ++ conn.diags⟩
    else ⟨.successWithInfo, db.executed ++ conn.executed, db.diags ++ conn.diags ++
      [⟨"SQLDriverConnect", "Session init SQL:\n" ++ String.ofList f.origFileText, .st01000⟩]⟩

/-- The parts that a run is to execute. -/
def SqlFile.parts (f : SqlFile) (dbCreated : Bool) : List (List Char) :=
  (if dbCreated && !f.dbInitSql.isEmpty then [f.dbInitSql] else []) ++
    if !f.connInitSql.isEmpty then [f.connInitSql] else []

theorem executed_runQueryWithStmt {w : Session} {query : List Char}
    (h : (runQueryWithStmt w query).ret.succeeded = true) :
    (runQueryWithStmt w query).executed = [statementText query] := by
  unfold runQueryWithStmt at h ⊢
  split_ifs at h ⊢ with halloc
  · simp [h] at halloc
  · rfl

theorem executed_runPart {w : Session} {part : List Char} {wanted : Bool}
    (h : (runPart w wanted part).ret.succeeded = true) :
    (runPart w wanted part).executed = (if wanted then [part] else []).map statementText := by
  cases wanted with
  | false => rfl
  | true => exact executed_runQueryWithStmt h

/-- A run that succeeds has passed on the text of every part. -/
theorem executed_run {w : Session} {f : SqlFile} {dbCreated : Bool}
    (h : (run w f dbCreated).ret.succeeded = true) :
    (run w f dbCreated).executed = (f.parts dbCreated).map statementText := by
  unfold run at h ⊢
  simp only at h ⊢
  split_ifs at h ⊢ with hdb hconn
  · simp [h] at hdb
  · simp [h] at hconn
  · rw [Bool.not_eq_true', Bool.not_eq_false] at hdb hconn
    rw [executed_runPart hdb, executed_runPart hconn, SqlFile.parts, List.map_append]

/-- The text of a part arrives whole exactly if its length is a `SQLSMALLINT`, or is taken for
`SQL_NTS`. -/
theorem statementText_eq_self_iff {query : List Char} (hne : query ≠ []) (hnul : '\x00' ∉ query) :
    statementText query = query ↔
      query.length < 2 ^ 15 ∨ query.length % 2 ^ 16 = 2 ^ 16 - 3 := by
  have hpos := List.length_pos_iff.2 hne
  rw [statementText, convertSQLCHARToString]
  by_cases hnts : query.length % 2 ^ 16 = 2 ^ 16 - 3
  · have htake : query.takeWhile (· != '\x00') = query := by
      rw [List.takeWhile_eq_self_iff]
      intro ch hch
      simp only [bne_iff_ne]
      rintro rfl
      exact hnul hch
    have hsmall : smallint query.length = sqlNts := by
      rw [smallint, if_neg (by omega), hnts]
      rfl
    rw [if_pos hsmall, htake]
    exact ⟨fun _ => .inr hnts, fun _ => rfl⟩
  · have hlen : ∀ k : ℕ, query.take k = query ↔ query.length ≤ k := by
      intro k
      refine ⟨fun h => ?_, List.take_of_length_le⟩
      have hle := congrArg List.length h
      rw [List.length_take] at hle
      omega
    have hsmall : smallint query.length ≠ sqlNts := by
      unfold smallint sqlNts
      split_ifs <;> omega
    rw [if_neg hsmall]
    simp only [hlen, smallint]
    split_ifs <;> omega

/-- A run that succeeds has executed exactly the parts it was to execute if and only if the
length of each of them is a `SQLSMALLINT`, or is `SQL_NTS` as one. -/
theorem run_executes_parts_iff {files : Files} {file sha : String} {f : SqlFile}
    (hread : readSqlFile files file sha = .ok f) (hnul : '\x00' ∉ f.origFileText) (w : Session)
    (dbCreated : Bool) (hrun : (run w f dbCreated).ret.succeeded = true) :
    (run w f dbCreated).executed = f.parts dbCreated ↔
      ∀ part ∈ f.parts dbCreated, part.length < 2 ^ 15 ∨ part.length % 2 ^ 16 = 2 ^ 16 - 3 := by
  obtain ⟨hdb, hconn⟩ := parts_subset_of_readSqlFile hread
  have hpart : ∀ part ∈ f.parts dbCreated, part ≠ [] ∧ '\x00' ∉ part := by
    intro part hpart
    simp only [SqlFile.parts, List.mem_append] at hpart
    rcases hpart with hpart | hpart
    · split_ifs at hpart with hb
      · rw [List.mem_singleton.1 hpart]
        exact ⟨by simp_all, fun h => hnul (hdb h)⟩
      · cases hpart
    · split_ifs at hpart with hb
      · rw [List.mem_singleton.1 hpart]
        exact ⟨by simp_all, fun h => hnul (hconn h)⟩
      · cases hpart
  have hmap : (f.parts dbCreated).map statementText = f.parts dbCreated ↔
      ∀ part ∈ f.parts dbCreated, statementText part = part := by
    simpa using List.map_inj_left (f := statementText) (g := id) (l := f.parts dbCreated)
  rw [executed_run hrun, hmap]
  exact forall₂_congr fun part h => statementText_eq_self_iff (hpart part h).1 (hpart part h).2

/-- A session that takes every statement. -/
def obliging : Session := ⟨.success, fun _ => (.success, "")⟩

/-- A file with one statement. -/
def oneStatement : Files := ⟨fun _ => some "SELECT 1".toList, fun _ => ""⟩

/-- A short part is executed as it is. -/
theorem run_executes_short_part :
    (run obliging ⟨"SELECT 1".toList, [], "SELECT 1".toList⟩ true).executed
      = ["SELECT 1".toList] := by
  have hread : readSqlFile oneStatement "init.sql" ""
      = .ok ⟨"SELECT 1".toList, [], "SELECT 1".toList⟩ := by decide
  exact (run_executes_parts_iff hread (by decide) obliging true (by decide)).2 (by decide)

theorem splitByMarker_of_no_slash {text : List Char} (h : '/' ∉ text) :
    splitByMarker text = [text] := by
  suffices hfind : findMarker text = (text, none) by simp [splitByMarker, hfind]
  induction text with
  | nil => rfl
  | cons ch text ih =>
    simp only [List.mem_cons, not_or] at h
    have hmatch : matchMarker (ch :: text) = none := by
      have hslash : ('/' == ch) = false := by simpa using h.1
      have htake : "/*".toList.isPrefixOf? (ch :: text) = none := by
        change List.isPrefixOf? ['/', '*'] (ch :: text) = none
        simp [List.isPrefixOf?, hslash]
      rw [matchMarker, htake]
      rfl
    simp [findMarker, hmatch, ih h.2]

theorem trimString_of_no_space {text : List Char} (h : ∀ ch ∈ text, isSpace ch = false) :
    trimString text = text := by
  have hdrop : text.dropWhile isSpace = text := by
    rw [List.dropWhile_eq_self_iff]
    intro hlt
    simp [h _ (List.getElem_mem hlt)]
  rw [trimString, hdrop, List.rdropWhile_eq_self_iff]
  intro hne
  simp [h _ (List.getLast_mem hne)]

/-- A file of one word. -/
theorem readSqlFile_word {word : List Char} (hslash : '/' ∉ word)
    (hspace : ∀ ch ∈ word, isSpace ch = false) (hlen : word.length ≤ sqlFileMaxSizeBytes) :
    readSqlFile ⟨fun _ => some word, fun _ => ""⟩ "init.sql" "" = .ok ⟨word, [], word⟩ := by
  simp [readSqlFile, splitByMarker_of_no_slash hslash, trimString_of_no_space hspace, hlen]

/-- Every run succeeds in a session that takes every statement. -/
theorem succeeded_run_obliging (f : SqlFile) (dbCreated : Bool) :
    (run obliging f dbCreated).ret.succeeded = true := by
  have hpart : ∀ wanted part, (runPart obliging wanted part).ret.succeeded = true := by
    intro wanted part
    cases wanted <;> rfl
  simp only [run, hpart, Bool.not_true, Bool.false_eq_true, if_false]
  rfl

/-- A part of 40000 bytes : the length is passed on as -25536, nothing is executed, and the run
succeeds. -/
theorem run_drops_long_part :
    ∃ f, readSqlFile ⟨fun _ => some (List.replicate 40000 'x'), fun _ => ""⟩ "init.sql" "" = .ok f ∧
      '\x00' ∉ f.origFileText ∧ (run obliging f true).ret.succeeded = true ∧
      (run obliging f true).executed ≠ f.parts true := by
  have hmem : ∀ ch ∈ List.replicate 40000 'x', ch = 'x' := fun ch h => List.eq_of_mem_replicate h
  have hlen : (List.replicate 40000 'x').length = 40000 := List.length_replicate
  generalize List.replicate 40000 'x' = word at hmem hlen ⊢
  have hnul : '\x00' ∉ word := fun h => absurd (hmem _ h) (by decide)
  have hne : word ≠ [] := by
    rintro rfl
    cases hlen
  refine ⟨_, readSqlFile_word (fun h => absurd (hmem _ h) (by decide))
    (fun ch h => by rw [hmem ch h]; rfl) (by rw [hlen]; decide), hnul, succeeded_run_obliging _ _,
    fun heq => ?_⟩
  rw [executed_run (succeeded_run_obliging _ _)] at heq
  have hpart : statementText word = word := by
    simpa [SqlFile.parts, hne] using heq
  rw [statementText_eq_self_iff hne hnul, hlen] at hpart
  omega

end HaybarnOdbc.SessionInit
