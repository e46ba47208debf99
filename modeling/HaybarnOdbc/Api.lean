import HaybarnOdbc.Deliver
import HaybarnOdbc.Params

/-!
# The calls on a statement handle

The entry points of the ODBC interface on one connected statement handle, each with the
check of its `Convert*` function, and `perform`, which is one call of any of them. A call
whose loops have not stopped after `n` turns has no outcome yet (`none`), and a call that
follows a bad pointer ends in a fault.
-/

namespace HaybarnOdbc

variable {ρ V : Type}

/-- The outcome of a call : its code, the handle after it, the rows it delivered, its stores
into the application's memory, and the log of its executions. -/
structure Reply (ρ V : Type) where
  ret : SqlReturn
  h : OdbcHandleStmt ρ V
  rows : List ρ := []
  writes : List Write := []
  log : List (ExecEvent V) := []

namespace OdbcHandleStmt

/-- `ConvertHSTMT` of a connected handle : the diagnostics of earlier calls go. -/
def convertHSTMT (h : OdbcHandleStmt ρ V) : OdbcHandleStmt ρ V := { h with diag := [] }

/-- `ConvertHSTMTPrepared`. -/
def convertHSTMTPrepared (h : OdbcHandleStmt ρ V) : SqlReturn × OdbcHandleStmt ρ V :=
  let h := h.convertHSTMT
  match h.stmt with
  | none => h.setDiagnosticRecord .error "stmt" "No statement found" .stHY000
  | some stmt =>
    match stmt.error with
    | some msg => h.setDiagnosticRecord .error "stmt" msg .stHY000
    | none => (.success, h)

/-- `ConvertHSTMTResult`. For a failed result it reads the error of the statement. -/
def convertHSTMTResult (h : OdbcHandleStmt ρ V) : Except Fault (SqlReturn × OdbcHandleStmt ρ V) :=
  let h := h.convertHSTMT
  match h.res with
  | none => .ok (h.setDiagnosticRecord .error "stmt" "No result set found" .stHY000)
  | some res =>
    match res.error with
    | none => .ok (.success, h)
    | some _ =>
      match h.stmt with
      | none => .error .nullStmt
      | some stmt =>
        .ok (h.setDiagnosticRecord .error "stmt" (stmt.error.getD "") .stHY000)

/-- The check passes if the statement was prepared, and only adds a record if not. -/
theorem convertHSTMTPrepared_cases (h : OdbcHandleStmt ρ V) :
    (∃ stmt, h.stmt = some stmt ∧ stmt.error = none ∧
      h.convertHSTMTPrepared = (.success, h.convertHSTMT)) ∨
    ∃ diag, h.convertHSTMTPrepared = (.error, { h with diag := diag }) := by
  unfold convertHSTMTPrepared
  cases hstmt : h.stmt with
  | none => exact .inr ⟨_, by simp only [convertHSTMT, hstmt]; rfl⟩
  | some stmt =>
    cases herr : stmt.error with
    | some msg => exact .inr ⟨_, by simp only [convertHSTMT, hstmt, herr]; rfl⟩
    | none => exact .inl ⟨stmt, rfl, herr, by simp only [convertHSTMT, hstmt, herr]⟩

/-- The check passes if there is a result. A result without a statement is a null pointer. -/
theorem convertHSTMTResult_cases (h : OdbcHandleStmt ρ V) :
    (∃ res, h.res = some res ∧ res.error = none ∧
      h.convertHSTMTResult = .ok (.success, h.convertHSTMT)) ∨
    (∃ diag, h.convertHSTMTResult = .ok (.error, { h with diag := diag })) ∨
    (h.res.isSome ∧ h.stmt = none ∧ h.convertHSTMTResult = .error .nullStmt) := by
  unfold convertHSTMTResult
  cases hres : h.res with
  | none => exact .inr (.inl ⟨_, by simp only [convertHSTMT, hres]; rfl⟩)
  | some res =>
    cases herr : res.error with
    | none => exact .inl ⟨res, rfl, herr, by simp only [convertHSTMT, hres, herr]⟩
    | some msg =>
      cases hstmt : h.stmt with
      | none => exact .inr (.inr ⟨rfl, rfl, by simp only [convertHSTMT, hres, herr, hstmt]⟩)
      | some stmt => exact .inr (.inl ⟨_, by simp only [convertHSTMT, hres, herr, hstmt]; rfl⟩)

/-- `DummyFetch` : the fetch of a statement that does not retrieve data. -/
def dummyFetch (h : OdbcHandleStmt ρ V) : SqlReturn × List Write :=
  if h.retrieveData then (.needData, [])
  else
    let n : ℤ := h.rowsetSize
    let row := h.odbcFetcher.chunkRow
    let size := if row + n > h.odbcFetcher.rowCount then h.odbcFetcher.rowCount - row else n
    if size ≤ 0 then (.noData, [])
    else
      (.success, if h.rowDesc.ird.arrayStatusPtr ≠ 0 then
        (List.range h.rowsetSize).map fun i =>
          .status i (if (i : ℤ) < size then .success else .noRow)
        else [])

/-- `ExecuteBeforeFetch`. -/
def executeBeforeFetch (source : ParamSource V) (result : QueryResult ρ)
    (h : OdbcHandleStmt ρ V) : Except Fault (Executed ρ V) := do
  match h.convertHSTMTPrepared with
  | (.success, h) =>
    if h.res.any fun res => res.error.isNone then return ⟨.success, h, []⟩
    else if h.paramDesc.hasParamSetToProcess then
      let x ← h.singleExecuteStmt source result
      return { x with ret := if x.ret = .stillExecuting then .success else x.ret }
    else return ⟨.success, h, []⟩
  | (ret, h) => return ⟨ret, h, []⟩

/-- `SQLFetch`. -/
def sqlFetch (E : Engine ρ V) (source : ParamSource V) (result : QueryResult ρ)
    (h : OdbcHandleStmt ρ V) : Except Fault (Reply ρ V) := do
  match h.convertHSTMTPrepared with
  | (.success, h) =>
    match h.dummyFetch with
    | (.needData, _) =>
      let x ← h.executeBeforeFetch source result
      if x.ret ≠ .success then return { ret := x.ret, h := x.h, log := x.log }
      else
        let d ← x.h.fetchStmtResult E .next 0
        return { ret := d.ret, h := d.h, rows := d.rows, writes := d.writes, log := x.log }
    | (ret, writes) => return { ret := ret, h := h, writes := writes }
  | (ret, h) => return { ret := ret, h := h }

/-- `SQLFetchScroll` : the offset is shifted by one, to rows that count from zero. -/
def sqlFetchScroll (E : Engine ρ V) (orientation : FetchOrientation) (fetchOffset : ℤ)
    (h : OdbcHandleStmt ρ V) : Except Fault (Reply ρ V) := do
  if orientation = .other then return { ret := .error, h := h }
  else
    match ← h.convertHSTMTResult with
    | (.success, h) =>
      let d ← h.fetchStmtResult E orientation (fetchOffset - 1)
      return { ret := d.ret, h := d.h, rows := d.rows, writes := d.writes }
    | (ret, h) => return { ret := ret, h := h }

/-- `SQLGetData`. -/
def sqlGetData (E : Engine ρ V) (colOrParamNum : ℕ) (targetType : CType) (target : Addr)
    (bufferLength : ℤ) (strLenOrInd : Addr) (h : OdbcHandleStmt ρ V) :
    Except Fault (Reply ρ V) := do
  match ← h.convertHSTMTResult with
  | (.success, h) =>
    let got ← h.getDataStmtResult E colOrParamNum targetType target bufferLength strLenOrInd
    return { ret := got.ret, h := got.h, writes := got.writes }
  | (ret, h) => return { ret := ret, h := h }

/-- `SQLMoreResults`. -/
def sqlMoreResults (source : ParamSource V) (result : QueryResult ρ) (h : OdbcHandleStmt ρ V) :
    Except Fault (Reply ρ V) := do
  let h := h.convertHSTMT
  if ¬h.paramDesc.hasParamSetToProcess then return { ret := .noData, h := h }
  else
    let x ← h.singleExecuteStmt source result
    return { ret := x.ret, h := x.h, log := x.log }

/-- `OdbcFetch::GetRowCount`. -/
def getRowCount (h : OdbcHandleStmt ρ V) : Except Fault ℤ :=
  match h.odbcFetcher.currentChunk with
  | none => .ok h.odbcFetcher.rowCount
  | some _ => do
    let c ← h.odbcFetcher.deref
    return max h.odbcFetcher.rowCount c.size

/-- `SQLRowCount`. -/
def sqlRowCount (rowCountPtr : Addr) (h : OdbcHandleStmt ρ V) : Except Fault (Reply ρ V) := do
  match ← h.convertHSTMTResult with
  | (.success, h) =>
    if rowCountPtr = 0 then return { ret := .error, h := h }
    else
      let count ← h.getRowCount
      match h.stmt with
      | none => .error .nullStmt
      | some stmt =>
        if stmt.error.isSome then .error .nullData
        else
          let count := if stmt.isDml then count else -1
          return { ret := .success, h := h, writes := [.ind rowCountPtr count] }
  | (ret, h) => return { ret := ret, h := h }

/-- `SQLPrepare` of a text that the engine prepares to `p`. -/
def sqlPrepare (p : PreparedStatement) (h : OdbcHandleStmt ρ V) : SqlReturn × OdbcHandleStmt ρ V :=
  h.convertHSTMT.prepareQuery.finalizeStmt p

/-- `SQLBindCol`. -/
def sqlBindCol (columnNumber : ℕ) (c : OdbcBoundCol) (h : OdbcHandleStmt ρ V) :
    OdbcHandleStmt ρ V :=
  let h := h.convertHSTMT
  let cols :=
    if h.boundCols.length < columnNumber then resize h.boundCols columnNumber {} else h.boundCols
  { h with boundCols := cols.set (columnNumber - 1) c }

end OdbcHandleStmt

/-! ## Calls -/

/-- The calls on a statement handle, with the answers of the engine that they ask for. -/
inductive Call (ρ V : Type)
  | prepare (p : PreparedStatement)
  | execute (a : ExecAnswers ρ V)
  | execDirect (statements : Except String (List (OdbcHandleStmt.StatementAnswer ρ V)))
  | bindParameter (args : BindParameterArgs)
  | bindCol (columnNumber : ℕ) (c : OdbcBoundCol)
  | fetch (source : ParamSource V) (result : QueryResult ρ)
  | fetchScroll (orientation : FetchOrientation) (fetchOffset : ℤ)
  | moreResults (source : ParamSource V) (result : QueryResult ρ)
  | rowCount (rowCountPtr : Addr)
  | getData (colOrParamNum : ℕ) (targetType : CType) (target : Addr) (bufferLength : ℤ)
      (strLenOrInd : Addr)
  | close
  | unbind
  | resetParams
  | setCursorType (t : CursorType)
  | setParamsetSize (n : ℕ)
  | setRowArraySize (n : ℕ)
  | setRowBindType (size : ℕ)
  | setRowsFetchedPtr (ptr : Addr)
  | setRowStatusPtr (ptr : Addr)
  | setRetrieveData (on : Bool)

namespace OdbcHandleStmt

/-- A call that only sets an attribute of the handle. -/
def attr (h : OdbcHandleStmt ρ V) : Option (Except Fault (Reply ρ V)) :=
  some (.ok { ret := .success, h := h })

/-- One call, with at most `n` turns of each of its loops. -/
def perform (E : Engine ρ V) (n : ℕ) (h : OdbcHandleStmt ρ V) :
    Call ρ V → Option (Except Fault (Reply ρ V))
  | .prepare p => some (.ok { ret := (h.sqlPrepare p).1, h := (h.sqlPrepare p).2 })
  | .execute a => (h.convertHSTMT.batchExecuteStmt n a).map fun x => x.map fun x =>
      { ret := x.ret, h := x.h, log := x.log }
  | .execDirect statements => (h.convertHSTMT.execDirectStmt n statements).map fun x =>
      x.map fun x => { ret := x.ret, h := x.h, log := x.log }
  | .bindParameter args => some (.ok
      { ret := (h.convertHSTMT.bindParameterStmt args).1,
        h := (h.convertHSTMT.bindParameterStmt args).2 })
  | .bindCol i c => attr (h.sqlBindCol i c)
  | .fetch source result => some (h.sqlFetch E source result)
  | .fetchScroll orientation offset => some (h.sqlFetchScroll E orientation offset)
  | .moreResults source result => some (h.sqlMoreResults source result)
  | .rowCount ptr => some (h.sqlRowCount ptr)
  | .getData col type target len ind => some (h.sqlGetData E col type target len ind)
  | .close => attr h.convertHSTMT.close
  | .unbind => attr { h.convertHSTMT with boundCols := [] }
  | .resetParams => attr { h.convertHSTMT with paramDesc := h.paramDesc.clear }
  | .setCursorType t => attr { h.convertHSTMT with odbcFetcher.cursorType := t }
  | .setParamsetSize k => attr { h.convertHSTMT with paramDesc.apd.header.arraySize := k }
  | .setRowArraySize k =>
    -- a null value is ignored
    attr { h.convertHSTMT with
      rowDesc.ard.arraySize := if k = 0 then h.rowDesc.ard.arraySize else k }
  | .setRowBindType size =>
    if size = 0 then some (.ok { ret := .error, h := h.convertHSTMT })
    else attr { h.convertHSTMT with rowDesc.ard.bindType := size }
  | .setRowsFetchedPtr ptr =>
    attr { h.convertHSTMT with rowsFetchedPtr := ptr, rowDesc.ird.rowsProcessedPtr := ptr }
  | .setRowStatusPtr ptr => attr { h.convertHSTMT with rowDesc.ird.arrayStatusPtr := ptr }
  | .setRetrieveData on => attr { h.convertHSTMT with retrieveData := on }

/-- Memory that held zeros. -/
def blank : OdbcHandleStmt ρ V where
  stmt := none
  res := none
  boundCols := []
  opened := false
  retrieveData := false
  rowsFetchedPtr := 0
  odbcFetcher := ⟨.forwardOnly, 0, ⟨0, 0, 0⟩, [], 0, none, 0, 0, false⟩
  paramDesc := {}
  rowDesc := {}
  diag := []

end OdbcHandleStmt

/-- A result of `columns` columns with the rows of `blocks`. -/
def queryResult (columns : ℕ) (blocks : List (Block ρ)) : QueryResult ρ where
  columnCount := columns
  pending := blocks
  failure := none
  fetched := 0
  error := none

/-- A statement without parameters whose result has the rows of `blocks`. -/
def select (columns : ℕ) (blocks : List (Block ρ)) : OdbcHandleStmt.StatementAnswer ρ V where
  prepared := ⟨none, 0, columns, true, false⟩
  exec := ⟨fun _ _ => .failed .error, fun _ => queryResult columns blocks⟩

end HaybarnOdbc
