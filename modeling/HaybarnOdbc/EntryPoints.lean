import Mathlib.Logic.Function.Basic
import HaybarnOdbc.Diagnostics
import HaybarnOdbc.Lib.Board
import HaybarnOdbc.Lib.Run

/-!
# The records a call leaves

The entry points as far as the diagnostic records of the handles go : the check an entry point
makes of its handle (`ConvertHandle`, `ConvertEnvironment`, …) and the records it posts then.
`Clean` is called by `ConvertConnection` and `ConvertHSTMT` alone, once they have found an open
connection. So what an entry point does behind its check only posts : where that is more than a
fixed record, the call carries the records with the handles that they are posted on, any of them
and in any order.

Which handles there are after a call, and the connection, statement and result that the checks
look at, are up to the engine (`step` leaves them open), but for the handle of the call itself,
which is freed by `SQLFreeHandle` and by `SQL_DROP` only.

A call leaves exactly the records it posts when the handle had none before, or the check clears
them, or the handle is freed (`leavesPosted_iff`). A connection that is not open, an
environment and a descriptor are never cleared.
-/

namespace HaybarnOdbc.Diag.EntryPoints

open Board

/-! ## Handles -/

/-- What the checks look at of a handle. -/
inductive HandleState
  /-- Whether there is `env->db`. -/
  | env (db : Bool)
  /-- Whether there is `dbc->conn`, and `dbc->dsn`. -/
  | dbc (conn : Bool) (dsn : List UInt8)
  /-- The handle `hstmt->dbc`, `hstmt->stmt` with the error it has, and `hstmt->res` with whether
  it has an error. -/
  | stmt (dbc : ℕ) (stmt : Option (Option (List UInt8))) (res : Option Bool)
  | desc
  deriving DecidableEq

/-- `OdbcHandleType`. -/
def HandleState.type : HandleState → HandleType
  | .env _ => .env
  | .dbc _ _ => .dbc
  | .stmt _ _ _ => .stmt
  | .desc => .desc

/-- `OdbcHandle` : what state it is in, and its records. -/
structure OdbcHandle where
  state : HandleState
  odbcDiagnostic : OdbcDiagnostic
  deriving DecidableEq

/-- The handles by their addresses. There is none at the null pointer, nor at a handle that was
freed. -/
abbrev Handles := ℕ → Option OdbcHandle

namespace Handles

/-- The state of the handle at an address. -/
def state (w : Handles) (a : ℕ) : Option HandleState := (w a).map OdbcHandle.state

/-- The records of a handle. -/
def records (w : Handles) (a : ℕ) : List DiagRecord :=
  match w a with
  | none => []
  | some h => h.odbcDiagnostic.diagRecords

/-- A connection that is open. -/
def conn (w : Handles) (a : ℕ) : Bool :=
  match w.state a with
  | some (.dbc conn _) => conn
  | _ => false

/-- `GetDataSourceName`. -/
def getDataSourceName (w : Handles) (a : ℕ) : List UInt8 :=
  match w.state a with
  | some (.dbc _ dsn) => dsn
  | _ => []

/-- A statement of an open connection. -/
def connected (w : Handles) (a : ℕ) : Bool :=
  match w.state a with
  | some (.stmt dbc _ _) => w.conn dbc
  | _ => false

end Handles

/-! ## What happens to the records -/

/-- `AddDiagRecord` and `Clean`, with the handles they are called on. -/
abbrev Events := List (Event ℕ DiagRecord)

/-- The record that `SetDiagnosticRecord` adds. -/
def diagRecord (component msg sqlstate : List UInt8) (serverName : List UInt8 := []) :
    DiagRecord :=
  OdbcDiagnostic.formatDiagnosticMessage (.new msg sqlstate serverName) serverName component

/-- A record of literals. -/
def literal (component msg sqlstate : String) (serverName : List UInt8 := []) : DiagRecord :=
  diagRecord (bytes component) (bytes msg) (bytes sqlstate) serverName

/-- What an event does to the records of the handle `a`. -/
def performEvent (a : ℕ) (d : OdbcDiagnostic) : Event ℕ DiagRecord → OdbcDiagnostic
  | .post b r => if b = a then d.addDiagRecord r else d
  | .clean b => if b = a then d.clean else d

/-- What events do to the records of the handle `a`. -/
def perform (a : ℕ) (d : OdbcDiagnostic) (es : Events) : OdbcDiagnostic :=
  es.foldl (performEvent a) d

/-- The records an entry point posts behind its check, with their handles. -/
abbrev Rest := List (ℕ × DiagRecord)

/-- The records behind the check, as events. -/
def Rest.events (rest : Rest) : Events := rest.map fun p => .post p.1 p.2

/-! ## The checks -/

/-- The answer of a check and what it does to the records. -/
abbrev Checked := SqlReturn × Events

/-- Going on only when the check succeeds. -/
def Checked.andThen (r : Checked) (es : Events) : Events :=
  if r.1 = .success then r.2 ++ es else r.2

variable (w : Handles) (a : ℕ)

/-- `ConvertHandle`. Every handle has its `odbc_diagnostic`. -/
def convertHandle : Checked :=
  match w a with
  | none => (.invalidHandle, [])
  | some _ => (.success, [])

/-- `ConvertEnvironment`. -/
def convertEnvironment : Checked :=
  match w.state a with
  | some (.env true) => (.success, [])
  | some (.env false) => (.error, [.post a (literal "env" "No database connection found" "HY000")])
  | _ => (.invalidHandle, [])

/-- `ConvertConnection`. -/
def convertConnection : Checked :=
  match w.state a with
  | some (.dbc true _) => (.success, [.clean a])
  | some (.dbc false _) =>
    (.error, [.post a (literal "dbc" "No database connection found" "08003")])
  | _ => (.invalidHandle, [])

/-- `ConvertDBCBeforeConnection`. -/
def convertDBCBeforeConnection : Checked :=
  match w.state a with
  | some (.dbc _ _) => (.success, [])
  | _ => (.invalidHandle, [])

/-- `ConvertHSTMT`. -/
def convertHSTMT : Checked :=
  match w.state a with
  | some (.stmt dbc _ _) =>
    if w.conn dbc then (.success, [.clean a])
    else (.error, [.post a (literal "dbc" "No database connection found" "08003")])
  | _ => (.invalidHandle, [])

/-- `ConvertHSTMTPrepared`. -/
def convertHSTMTPrepared : Checked :=
  match w.state a, convertHSTMT w a with
  | some (.stmt _ none _), (.success, es) =>
    (.error, es ++ [.post a (literal "stmt" "No statement found" "HY000")])
  | some (.stmt dbc (some (some msg)) _), (.success, es) =>
    (.error, es ++ [.post a (diagRecord (bytes "stmt") msg (bytes "HY000")
      (w.getDataSourceName dbc))])
  | _, r => r

/-- `ConvertHSTMTResult`. Of a result with an error it reads the error of the statement. -/
def convertHSTMTResult : Checked :=
  match w.state a, convertHSTMT w a with
  | some (.stmt dbc _ none), (.success, es) =>
    (.error, es ++ [.post a (literal "stmt" "No result set found" "HY000"
      (w.getDataSourceName dbc))])
  | some (.stmt dbc stmt (some true)), (.success, es) =>
    (.error, es ++ [.post a (diagRecord (bytes "stmt") (stmt.join.getD []) (bytes "HY000")
      (w.getDataSourceName dbc))])
  | _, r => r

/-- `ConvertDescriptor`. -/
def convertDescriptor : Checked :=
  match w.state a with
  | some .desc => (.success, [])
  | _ => (.invalidHandle, [])

/-! ## The entry points -/

/-- The attributes of an environment. -/
inductive EnvAttr
  | odbcVersion
  | connectionPooling
  | cpMatch
  | outputNts
  | other

/-- The attributes of a connection, as far as `SQLSetConnectAttr` tells them apart before its
check. -/
inductive ConnectAttr
  | loginTimeout
  | odbcCursors
  | packetSize
  | vendorMsjet
  | other

/-- An attribute that is set before there is a connection. -/
def ConnectAttr.beforeConnection : ConnectAttr → Bool
  | .other => false
  | _ => true

/-- The types of `SQLGetInfo` : written by `WriteStringInfo`; the data source and the database,
checked before; the keywords, with whether the driver's own statement could list them; numbers;
and what is no type. -/
inductive InfoType
  | text
  | named
  | keywords (listed : Bool)
  | number
  | unrecognized (infoType : ℕ)

/-- The entry points that go on with a statement once `ConvertHSTMT` has found it. -/
inductive StatementFunction
  | sqlGetStmtAttr
  | sqlSetStmtAttr
  | sqlBindCol
  | sqlBindParameter
  | sqlCloseCursor
  | sqlPrimaryKeys
  | sqlForeignKeys
  | sqlProcedureColumns
  | sqlProcedures
  | sqlColumnPrivileges
  | sqlTablePrivileges
  | sqlSpecialColumns
  | sqlStatistics
  | sqlGetTypeInfo
  | sqlTables
  | sqlColumns
  | sqlMoreResults
  | sqlPrepare
  | sqlExecute
  | sqlExecDirect
  | sqlCancel

/-- The ones that need a prepared statement (`ConvertHSTMTPrepared`), but for `SQLFetch`. -/
inductive PreparedFunction
  | sqlDescribeCol
  | sqlColAttribute
  | sqlColAttributes
  | sqlNumResultCols
  | sqlDescribeParam
  | sqlNumParams
  | sqlParamData
  | sqlPutData

/-- The ones that need a result (`ConvertHSTMTResult`), but for `SQLFetchScroll`. -/
inductive ResultFunction
  | sqlGetData
  | sqlRowCount

/-- The ones that `ConvertDescriptor` checks. -/
inductive DescriptorFunction
  | sqlGetDescField
  | sqlSetDescField
  | sqlGetDescRec
  | sqlSetDescRec

/-- The functions marked as not implemented. -/
inductive Unimplemented
  | sqlNativeSql
  | sqlBrowseConnect
  | sqlBulkOperations
  | sqlSetPos
  | sqlSetCursorName
  | sqlSetCursorNameW
  | sqlGetCursorName
  | sqlGetCursorNameW

/-- The name each hands to `SetNotImplemented`. -/
def Unimplemented.funcName : Unimplemented → String
  | .sqlNativeSql => "SQLNativeSql"
  | .sqlBrowseConnect => "SQLBrowseConnect"
  | .sqlBulkOperations => "SQLBulkOperations"
  | .sqlSetPos => "SQLSetPos"
  | .sqlSetCursorName => "SQLSetCursorName"
  | .sqlSetCursorNameW => "SQLSetCursorNameW"
  | .sqlGetCursorName => "SQLGetCursorName"
  | .sqlGetCursorNameW => "SQLGetCursorNameW"

/-- A call of an entry point other than `SQLGetDiagRec` and `SQLGetDiagField`. A version for wide
characters that differs in its texts only is the same call. -/
inductive Call
  | sqlGetEnvAttr (attr : EnvAttr) (hasValuePtr : Bool)
  | sqlSetEnvAttr (attr : EnvAttr) (valuePtr : ℕ)
  | sqlDataSources
  | sqlDrivers
  | sqlGetConnectAttr (rest : Rest)
  | sqlSetConnectAttr (attr : ConnectAttr) (rest : Rest)
  | sqlConnect (rest : Rest)
  | sqlDriverConnect (rest : Rest)
  | sqlDisconnect
  | sqlEndTran (ofDbc : Bool) (rest : Rest)
  | sqlGetInfo (infoType : InfoType) (numericNull : Bool) (rest : Rest)
  | sqlGetFunctions
  | sqlAllocHandle
  | sqlFreeHandle (handleType : Option HandleType)
  | sqlFreeStmt (drop : Bool) (rest : Rest)
  | statement (f : StatementFunction) (rest : Rest)
  | prepared (f : PreparedFunction) (rest : Rest)
  | sqlFetch (needData : Bool) (rest : Rest)
  | sqlFetchScroll (knownOrientation : Bool) (rest : Rest)
  | result (f : ResultFunction) (rest : Rest)
  | descriptor (f : DescriptorFunction) (rest : Rest)
  | sqlCopyDesc (rest : Rest)
  | unimplemented (f : Unimplemented)

/-- `ExtractMajorVersion`. -/
def extractMajorVersion (valuePtr : ℕ) : ℕ :=
  let fullVersion := valuePtr % 2 ^ 32
  if fullVersion > 100 then fullVersion / 100
  else if fullVersion > 10 then fullVersion / 10
  else fullVersion

/-- What `SQLSetEnvAttr` posts. Two of its records name `SQLSetConnectAttr`. -/
def setEnvAttr (attr : EnvAttr) (valuePtr : ℕ) : List DiagRecord :=
  match attr with
  | .odbcVersion =>
    let majorVersion := extractMajorVersion valuePtr
    if majorVersion = 3 ∨ majorVersion = 2 then []
    else [literal "SQLSetEnvAttr" ("ODBC version not supported: " ++ toString majorVersion) "HY092"]
  | .connectionPooling =>
    if valuePtr % 2 ^ 32 ≤ 2 then []
    else [literal "SQLSetConnectAttr" "Connection pooling not supported: 201" "HY092"]
  | .cpMatch => [literal "SQLSetConnectAttr" "Optional feature not implemented." "HY092"]
  | .outputNts =>
    if valuePtr % 2 ^ 32 = 1 then []
    else [literal "SQLSetConnectAttr"
      "Optional feature not implemented.  SQL_ATTR_OUTPUT_NTS must be SQL_TRUE" "HY092"]
  | .other => [literal "SQLSetEnvAttr" "Invalid attribute value" "HY024"]

/-- `SQLGetEnvAttr`, which makes its own check of the handle. -/
def getEnvAttr (attr : EnvAttr) (hasValuePtr : Bool) : Events :=
  match hasValuePtr, w.state a, attr with
  | true, some (.env _), .cpMatch =>
    [.post a (literal "SQLGetEnvAttr" "Optional feature not implemented." "HYC00")]
  | _, _, _ => []

/-- `GetInfoInternal`. `WriteStringInfo` goes on when its check fails. -/
def getInfoInternal (infoType : InfoType) (numericNull : Bool) (rest : Rest) : Events :=
  if numericNull then
    (convertConnection w a).andThen [.post a (literal "SQLGetInfo"
      "Invalid null value pointer for numeric info type." "HY024" (w.getDataSourceName a))]
  else
    match infoType with
    | .text => (convertConnection w a).2 ++ rest.events
    | .named => (convertConnection w a).andThen ((convertConnection w a).2 ++ rest.events)
    | .keywords listed => if listed then (convertConnection w a).2 ++ rest.events else []
    | .number => []
    | .unrecognized infoType =>
      (convertConnection w a).andThen [.post a (literal "SQLGetInfo"
        ("Unrecognized attribute: " ++ toString infoType) "HY092" (w.getDataSourceName a))]

/-- What a call does to the records. -/
def Call.events : Call → Events
  | .sqlGetEnvAttr attr hasValuePtr => getEnvAttr w a attr hasValuePtr
  | .sqlSetEnvAttr attr valuePtr =>
    (convertEnvironment w a).andThen ((setEnvAttr attr valuePtr).map (.post a))
  | .sqlDataSources =>
    (convertEnvironment w a).andThen
      [.post a (literal "SQLDataSources" "Driver Manager only function" "HY000")]
  | .sqlDrivers =>
    (convertEnvironment w a).andThen
      [.post a (literal "SQLDrivers" "Driver Manager only function" "HY000")]
  | .sqlGetConnectAttr rest => (convertConnection w a).andThen rest.events
  | .sqlSetConnectAttr attr rest =>
    if attr.beforeConnection then [] else (convertConnection w a).andThen rest.events
  | .sqlConnect rest => (convertDBCBeforeConnection w a).andThen rest.events
  | .sqlDriverConnect rest => (convertDBCBeforeConnection w a).andThen rest.events
  | .sqlDisconnect => (convertConnection w a).andThen []
  | .sqlEndTran ofDbc rest =>
    if ofDbc then (convertConnection w a).andThen rest.events
    else [.post a (literal "SQLEndTran" "Invalid handle type, must be SQL_HANDLE_DBC." "HY092")]
  | .sqlGetInfo infoType numericNull rest => getInfoInternal w a infoType numericNull rest
  | .sqlGetFunctions => []
  | .sqlAllocHandle => []
  | .sqlFreeHandle _ => []
  | .sqlFreeStmt _ rest => (convertHSTMT w a).andThen rest.events
  | .statement _ rest => (convertHSTMT w a).andThen rest.events
  | .prepared _ rest => (convertHSTMTPrepared w a).andThen rest.events
  | .sqlFetch needData rest =>
    -- behind `DummyFetch`, `ExecuteBeforeFetch` makes the check once more
    (convertHSTMTPrepared w a).andThen
      (if needData then (convertHSTMTPrepared w a).2 ++ rest.events else [])
  | .sqlFetchScroll knownOrientation rest =>
    if knownOrientation then (convertHSTMTResult w a).andThen rest.events else []
  | .result _ rest => (convertHSTMTResult w a).andThen rest.events
  | .descriptor _ rest => (convertDescriptor w a).andThen rest.events
  | .sqlCopyDesc rest => rest.events
  | .unimplemented f =>
    (convertHandle w a).andThen
      [.post a (literal f.funcName (f.funcName ++ " is not implemented") "HYC00")]

/-- The call frees its handle. -/
def Call.frees : Call → Bool
  | .sqlFreeHandle (some type) => (w.state a).map HandleState.type = some type
  | .sqlFreeStmt drop _ => drop && w.connected a
  | _ => false

/-! ## Runs -/

/-- A call, or one that reads the records. -/
inductive Input
  | call (a : ℕ) (c : Call)
  | diag (a : ℕ) (op : Op) (reads : op.reads = true)

variable {w a}

/-- The handles after a call. Their states are left open. -/
def step (w : Handles) : Input → Handles → Prop
  | .call a c, w' =>
    ((w' a).isSome ↔ (w a).isSome ∧ ¬c.frees w a) ∧
    ∀ b h', w' b = some h' → h'.odbcDiagnostic =
      perform b (((w b).map OdbcHandle.odbcDiagnostic).getD .new) (c.events w a)
  | .diag a op _, w' =>
    match w a with
    | none => w' = w
    | some h => ∃ d, op.perform h.state.type h.odbcDiagnostic = some d ∧
      w' = Function.update w a (some { h with odbcDiagnostic := d })

/-- After the call the records of its handle are the ones that the call posted on it. -/
def LeavesPosted (w : Handles) : Input → Prop
  | .call a c => ∀ w', step w (.call a c) w' → ∀ h, w' a = some h →
    h.odbcDiagnostic.diagRecords = Board.posted a (c.events w a)
  | .diag _ _ _ => True

/-! ## When the records are cleared -/

/-- The checks that can clear the records. -/
inductive Check
  | convertConnection
  | convertHSTMT
  /-- Another check, or none. -/
  | other

/-- The check an entry point begins with. The ones for prepared statements and for results begin
with `ConvertHSTMT`. -/
def Call.check : Call → Check
  | .sqlGetConnectAttr _ => .convertConnection
  | .sqlSetConnectAttr attr _ =>
    if attr.beforeConnection then .other else .convertConnection
  | .sqlDisconnect => .convertConnection
  | .sqlEndTran ofDbc _ => if ofDbc then .convertConnection else .other
  | .sqlGetInfo infoType numericNull _ =>
    if numericNull then .convertConnection
    else
      match infoType with
      | .keywords listed => if listed then .convertConnection else .other
      | .number => .other
      | _ => .convertConnection
  | .sqlFreeStmt _ _ => .convertHSTMT
  | .statement _ _ => .convertHSTMT
  | .prepared _ _ => .convertHSTMT
  | .sqlFetch _ _ => .convertHSTMT
  | .sqlFetchScroll knownOrientation _ => if knownOrientation then .convertHSTMT else .other
  | .result _ _ => .convertHSTMT
  | _ => .other

/-- The check finds an open connection. -/
def Check.clears (w : Handles) (a : ℕ) : Check → Bool
  | .convertConnection => w.conn a
  | .convertHSTMT => w.connected a
  | .other => false

/-- The handle has no records when the call begins, or they are cleared, or it is freed. -/
def ForgetsEarlier (w : Handles) : Input → Prop
  | .call a c => w.records a = [] ∨ c.check.clears w a ∨ c.frees w a
  | .diag _ _ _ => True

/-! ## The checks clear before they post -/

/-- The events of a check, or of what begins with it. -/
structure Clears (w : Handles) (a : ℕ) (k : Check) (es : Events) : Prop where
  tidy : Tidy a es
  clean_iff : .clean a ∈ es ↔ k.clears w a = true

namespace Clears

variable {k : Check} {es es' : Events}

theorem append (h : Clears w a k es) (h' : .clean a ∉ es') : Clears w a k (es ++ es') where
  tidy := h.tidy.append h'
  clean_iff := by
    rw [← h.clean_iff, List.mem_append]
    exact or_iff_left h'

/-- What follows a check without cleaning adds to it. -/
theorem andThen {r : Checked} (h : Clears w a k r.2) (h' : .clean a ∉ es') :
    Clears w a k (r.andThen es') := by
  unfold Checked.andThen
  split
  · exact h.append h'
  · exact h

/-- What only posts. -/
theorem other (h : .clean a ∉ es) : Clears w a .other es where
  tidy := tidy_of_not_wiped h
  clean_iff := by simp [h, Check.clears]

end Clears

/-- What is behind the check cleans nothing. -/
theorem Rest.not_wiped (rest : Rest) : .clean a ∉ rest.events := by
  simp [Rest.events]

theorem clears_nil : Clears w a .other [] := .other (by simp)

/-- The check of a connection cleans its records. -/
theorem clears_convertConnection : Clears w a .convertConnection (convertConnection w a).2 := by
  unfold convertConnection
  split
  · next heq =>
    refine ⟨(tidy_of_not_wiped (by simp)).wiped, ?_⟩
    simp [Check.clears, Handles.conn, heq]
  · next heq =>
    refine ⟨tidy_of_not_wiped (by simp), ?_⟩
    simp [Check.clears, Handles.conn, heq]
  · next hopen hclosed =>
    refine ⟨tidy_of_not_wiped (by simp), ?_⟩
    simp only [List.not_mem_nil, Check.clears, Handles.conn, false_iff]
    split
    · next conn dsn heq =>
      cases conn with
      | true => exact absurd heq (hopen dsn)
      | false => exact absurd heq (hclosed dsn)
    · exact Bool.false_ne_true

/-- The check of a statement cleans its records. -/
theorem clears_convertHSTMT : Clears w a .convertHSTMT (convertHSTMT w a).2 := by
  unfold convertHSTMT
  split
  · next dbc stmt res heq =>
    by_cases hconn : w.conn dbc = true
    · rw [if_pos hconn]
      refine ⟨(tidy_of_not_wiped (by simp)).wiped, ?_⟩
      simp [Check.clears, Handles.connected, heq, hconn]
    · rw [if_neg hconn]
      refine ⟨tidy_of_not_wiped (by simp), ?_⟩
      simp [Check.clears, Handles.connected, heq, hconn]
  · next hno =>
    refine ⟨tidy_of_not_wiped (by simp), ?_⟩
    simp only [List.not_mem_nil, Check.clears, Handles.connected, false_iff]
    exact Bool.false_ne_true

/-- The check for a prepared statement posts at most one record behind `ConvertHSTMT`. -/
theorem convertHSTMTPrepared_cases :
    convertHSTMTPrepared w a = convertHSTMT w a ∨
    ∃ r, convertHSTMTPrepared w a = (.error, (convertHSTMT w a).2 ++ [.post a r]) := by
  unfold convertHSTMTPrepared
  split
  · next heq => exact .inr ⟨_, by rw [heq]⟩
  · next heq => exact .inr ⟨_, by rw [heq]⟩
  · exact .inl rfl

/-- The check of a result is that of the statement, and may post a record. -/
theorem convertHSTMTResult_cases :
    convertHSTMTResult w a = convertHSTMT w a ∨
    ∃ r, convertHSTMTResult w a = (.error, (convertHSTMT w a).2 ++ [.post a r]) := by
  unfold convertHSTMTResult
  split
  · next heq => exact .inr ⟨_, by rw [heq]⟩
  · next heq => exact .inr ⟨_, by rw [heq]⟩
  · exact .inl rfl

/-- The check of a prepared statement cleans as well. -/
theorem clears_convertHSTMTPrepared :
    Clears w a .convertHSTMT (convertHSTMTPrepared w a).2 := by
  rcases convertHSTMTPrepared_cases (w := w) (a := a) with h | ⟨r, h⟩
  · rw [h]
    exact clears_convertHSTMT
  · rw [h]
    exact clears_convertHSTMT.append (by simp)

theorem clears_convertHSTMTResult :
    Clears w a .convertHSTMT (convertHSTMTResult w a).2 := by
  rcases convertHSTMTResult_cases (w := w) (a := a) with h | ⟨r, h⟩
  · rw [h]
    exact clears_convertHSTMT
  · rw [h]
    exact clears_convertHSTMT.append (by simp)

/-- A check that succeeds only clears. -/
def Checked.Quiet (a : ℕ) (r : Checked) : Prop := r.1 = .success → r.2 = [] ∨ r.2 = [.clean a]

theorem quiet_convertConnection : (convertConnection w a).Quiet a := by
  unfold convertConnection Checked.Quiet
  split <;> simp

theorem quiet_convertHSTMTPrepared : (convertHSTMTPrepared w a).Quiet a := by
  rcases convertHSTMTPrepared_cases (w := w) (a := a) with h | ⟨r, h⟩
  · rw [h]
    unfold convertHSTMT Checked.Quiet
    split
    · split <;> simp
    · simp
  · rw [h]
    simp [Checked.Quiet]

/-- A check can be made twice, with nothing posted in between. -/
theorem Clears.again {k : Check} {r : Checked} {es : Events} (h : Clears w a k r.2)
    (hquiet : r.Quiet a) (hes : .clean a ∉ es) : Clears w a k (r.andThen (r.2 ++ es)) := by
  unfold Checked.andThen
  split
  · next hret =>
    rcases hquiet hret with hr | hr
    · simpa [hr] using h.append hes
    · refine ⟨?_, ?_⟩
      · rw [hr]
        exact ((tidy_of_not_wiped hes).wiped).wiped
      · rw [← h.clean_iff, hr]
        simp
  · exact h

/-- Every other check posts at most one record. -/
theorem clears_check_other {r : Checked} (hr : r.2 = [] ∨ ∃ p, r.2 = [.post a p]) :
    Clears w a .other r.2 := by
  rcases hr with hr | ⟨p, hr⟩
  · rw [hr]
    exact clears_nil
  · rw [hr]
    exact .other (by simp)

theorem clears_convertEnvironment : Clears w a .other (convertEnvironment w a).2 := by
  refine clears_check_other ?_
  unfold convertEnvironment
  split <;> simp

/-- The check before a connection cleans nothing. -/
theorem clears_convertDBCBeforeConnection :
    Clears w a .other (convertDBCBeforeConnection w a).2 := by
  refine clears_check_other ?_
  unfold convertDBCBeforeConnection
  split <;> simp

theorem clears_convertDescriptor : Clears w a .other (convertDescriptor w a).2 := by
  refine clears_check_other ?_
  unfold convertDescriptor
  split <;> simp

theorem clears_convertHandle : Clears w a .other (convertHandle w a).2 := by
  refine clears_check_other ?_
  unfold convertHandle
  split <;> simp

theorem clears_getEnvAttr (attr : EnvAttr) (hasValuePtr : Bool) :
    Clears w a .other (getEnvAttr w a attr hasValuePtr) := by
  refine .other ?_
  unfold getEnvAttr
  split <;> simp

/-- Every call clears the records of its handle before it posts, if its check clears them. -/
theorem clears_events (c : Call) : Clears w a c.check (c.events w a) := by
  cases c with
  | sqlGetEnvAttr attr hasValuePtr => exact clears_getEnvAttr attr hasValuePtr
  | sqlSetEnvAttr attr valuePtr => exact clears_convertEnvironment.andThen (by simp)
  | sqlDataSources => exact clears_convertEnvironment.andThen (by simp)
  | sqlDrivers => exact clears_convertEnvironment.andThen (by simp)
  | sqlGetConnectAttr rest => exact clears_convertConnection.andThen rest.not_wiped
  | sqlSetConnectAttr attr rest =>
    simp only [Call.check, Call.events]
    split
    · exact clears_nil
    · exact clears_convertConnection.andThen rest.not_wiped
  | sqlConnect rest => exact clears_convertDBCBeforeConnection.andThen rest.not_wiped
  | sqlDriverConnect rest => exact clears_convertDBCBeforeConnection.andThen rest.not_wiped
  | sqlDisconnect => exact clears_convertConnection.andThen (by simp)
  | sqlEndTran ofDbc rest =>
    cases ofDbc with
    | true => exact clears_convertConnection.andThen rest.not_wiped
    | false =>
      refine .other ?_
      simp [Call.events]
  | sqlGetInfo infoType numericNull rest =>
    cases numericNull with
    | true => exact clears_convertConnection.andThen (by simp)
    | false =>
      cases infoType with
      | text => exact clears_convertConnection.append rest.not_wiped
      | named => exact clears_convertConnection.again quiet_convertConnection rest.not_wiped
      | keywords listed =>
        cases listed with
        | true => exact clears_convertConnection.append rest.not_wiped
        | false => exact clears_nil
      | number => exact clears_nil
      | unrecognized infoType => exact clears_convertConnection.andThen (by simp)
  | sqlGetFunctions => exact clears_nil
  | sqlAllocHandle => exact clears_nil
  | sqlFreeHandle handleType => exact clears_nil
  | sqlFreeStmt drop rest => exact clears_convertHSTMT.andThen rest.not_wiped
  | statement f rest => exact clears_convertHSTMT.andThen rest.not_wiped
  | prepared f rest => exact clears_convertHSTMTPrepared.andThen rest.not_wiped
  | sqlFetch needData rest =>
    cases needData with
    | true => exact clears_convertHSTMTPrepared.again quiet_convertHSTMTPrepared rest.not_wiped
    | false => exact clears_convertHSTMTPrepared.andThen (by simp)
  | sqlFetchScroll knownOrientation rest =>
    cases knownOrientation with
    | true => exact clears_convertHSTMTResult.andThen rest.not_wiped
    | false => exact clears_nil
  | result f rest => exact clears_convertHSTMTResult.andThen rest.not_wiped
  | descriptor f rest => exact clears_convertDescriptor.andThen rest.not_wiped
  | sqlCopyDesc rest => exact .other rest.not_wiped
  | unimplemented f => exact clears_convertHandle.andThen (by simp)

/-! ## What a call leaves -/

/-- The records are those that the board of the handle shows. -/
theorem diagRecords_perform (es : Events) (d : OdbcDiagnostic) :
    (perform a d es).diagRecords = Board.left a d.diagRecords es := by
  induction es generalizing d with
  | nil => rfl
  | cons e es ih =>
    have hone : (performEvent a d e).diagRecords = e.onto a d.diagRecords := by
      cases e with
      | post b r =>
        by_cases hb : b = a
        · simp [performEvent, Event.onto, hb, OdbcDiagnostic.addDiagRecord]
        · simp [performEvent, Event.onto, hb]
      | clean b =>
        by_cases hb : b = a
        · simp [performEvent, Event.onto, hb, OdbcDiagnostic.clean, OdbcDiagnostic.new]
        · simp [performEvent, Event.onto, hb]
    exact (ih _).trans (congrArg (Board.left a · es) hone)

/-- The handles after a call that changes no states. -/
def Handles.afterCall (w : Handles) (a : ℕ) (c : Call) : Handles := fun b =>
  (w b).map fun h => { h with odbcDiagnostic := perform b h.odbcDiagnostic (c.events w a) }

/-- A call that frees nothing is a step. -/
theorem step_afterCall {c : Call} (h : c.frees w a = false) :
    step w (.call a c) (w.afterCall a c) := by
  refine ⟨by simp [Handles.afterCall, h], ?_⟩
  intro b h' hb
  obtain ⟨h, hwb, rfl⟩ := Option.map_eq_some_iff.1 hb
  rw [hwb]
  rfl

/-- A call leaves the records it posted exactly when it forgets the earlier ones. -/
theorem leavesPosted_iff (w : Handles) (i : Input) : LeavesPosted w i ↔ ForgetsEarlier w i := by
  cases i with
  | diag a op reads => exact Iff.rfl
  | call a c =>
    have hevents := clears_events (w := w) (a := a) c
    constructor
    · intro hleaves
      by_contra hnot
      simp only [ForgetsEarlier, not_or, Bool.not_eq_true] at hnot
      obtain ⟨hrecords, hkept, hstays⟩ := hnot
      cases hw : w a with
      | none => exact hrecords (by simp [Handles.records, hw])
      | some h =>
        have heq := hleaves _ (step_afterCall hstays) _ (by rw [Handles.afterCall, hw]; rfl)
        rw [diagRecords_perform, left_eq_posted_iff hevents.tidy, hevents.clean_iff, hkept] at heq
        exact heq.elim (fun hnil => hrecords (by simpa [Handles.records, hw] using hnil))
          Bool.false_ne_true
    · rintro hforgets w' ⟨halive, hdiag⟩ h' hw'
      obtain ⟨hsome, hstays⟩ := halive.1 (by rw [hw']; rfl)
      obtain ⟨h, hw⟩ := Option.isSome_iff_exists.1 hsome
      rw [hdiag a h' hw', hw, diagRecords_perform, left_eq_posted_iff hevents.tidy,
        hevents.clean_iff]
      rcases hforgets with hrecords | hclears | hfrees
      · exact .inl (by simpa [Handles.records, hw] using hrecords)
      · exact .inr hclears
      · exact absurd hfrees hstays

/-- Along every run of calls the records left are those posted, exactly when every call of the
run forgets the earlier ones. -/
theorem records_posted_iff (w : Handles) (is : List Input) :
    Run.Along step LeavesPosted w is ↔ Run.Along step ForgetsEarlier w is :=
  Run.along_congr leavesPosted_iff w is

/-- Two attempts to connect with a string that is none leave the record of the first one with that
of the second one. -/
theorem record_of_first_attempt :
    ¬Run.Along step LeavesPosted
      (fun b => if b = 1 then some ⟨.dbc false [], .new⟩ else none)
      (List.replicate 2 (.call 1 (.sqlDriverConnect
        [(1, literal "SQLDriverConnect" "Invalid ODBC connection string" "HY000")]))) := by
  intro h
  have hsecond := (h.2 _ (step_afterCall rfl)).1 _ (step_afterCall rfl) _ rfl
  exact absurd (congrArg List.length hsecond) (by decide)

end HaybarnOdbc.Diag.EntryPoints
