import HaybarnOdbc.Lib.DoWhile
import HaybarnOdbc.Lib.Outcome
import HaybarnOdbc.Registry

/-!
# What the calls on a statement do to its descriptors

Preparing sizes the records of the parameter descriptors and fills the implementation row
descriptor, binding fills the records of a parameter, executing reads them, and the attributes
of the statement are fields of the headers. Some of this names a descriptor that the statement
owns (`apd`, `ard`), some the current one (`curApd`).

What the engine answers, and what `SetValue` makes of a record and of the application's memory,
are parameters of a call. The descriptors that a statement refers to are live (`registered`) :
a change of one that is not there is no change, and it has no records.
-/

namespace HaybarnOdbc.Desc

open Diag (smallInt)

/-- The record of the implementation descriptor, as `BindParameterStmt` fills it. -/
def bindIpdRecord (a : BindParameterArgs) (r : DescRecord) : DescRecord :=
  { r with
    parameterType := a.inputOutputType
    length := a.columnSize
    precision := smallInt a.columnSize
    scale := a.decimalDigits }.setSqlDataType a.parameterType

/-- The record of the application descriptor, as `BindParameterStmt` fills it. -/
def bindApdRecord (a : BindParameterArgs) (r : DescRecord) : DescRecord :=
  let r := r.setSqlDataType a.valueType
  { r with
    dataPtr := a.parameterValuePtr
    octetLength := a.bufferLength
    indicatorPtr := a.strLenOrIndPtr
    octetLengthPtr := a.strLenOrIndPtr }

namespace OdbcHandleDesc

/-- The record at the index is there and changed. -/
def fillRecord (d : OdbcHandleDesc) (idx : ℕ) (f : DescRecord → DescRecord) : OdbcHandleDesc :=
  { d.getDescRecord idx with records := (d.getDescRecord idx).records.modify idx f }

end OdbcHandleDesc

/-- The outcome of `SetValue` : the value is set, its data comes at execution time, or it cannot be
read. -/
inductive ReadCode
  | value
  | needData
  | failed
  deriving DecidableEq, Repr

/-- What `SetValue` does with a record : it is done, or goes on with the octet length of the
parameter, as it does for text and bytes. -/
inductive Reading
  | done (code : ReadCode)
  | withLength (f : ℤ → ReadCode)

/-- What `SetValue` makes of the record of the current application descriptor, the one of the
implementation descriptor, the offset pointer and the parameter set. -/
abbrev ParamSource := DescRecord → DescRecord → Addr → ℕ → Reading

/-- The engine's part in `SQLExecute` : for each execution of the prepared statement its columns or
that it failed, whether the first chunk can be fetched, and the records of the columns. -/
structure ExecAnswers where
  source : ParamSource
  results : ℕ → Option ℕ
  fetches : Bool
  column : ℕ → DescRecord

namespace World

variable (w : World)

/-- The header of the descriptor at the address. -/
def header (d : Handle) : DescHeader := (w.descs d).elim {} fun x => x.header

/-- The records of the descriptor at the address. -/
def records (d : Handle) : List DescRecord := (w.descs d).elim [] fun x => x.records

/-- `records[i]`. -/
def record (d : Handle) (i : ℕ) : Except Fault DescRecord :=
  match (w.records d)[i]? with
  | some r => .ok r
  | none => .error .outOfRange

/-- The header of the descriptor at the address is changed. -/
def modifyHeader (d : Handle) (f : DescHeader → DescHeader) : World :=
  w.modifyDesc d fun x => { x with header := f x.header }

/-- Which descriptor it is : `IsIRD` and `IsIPD`, of the statement that it refers to. -/
def kind (d : Handle) : Kind :=
  let s := (w.descs d).bind fun x => x.stmt.bind w.stmts
  ⟨s.any fun s => s.ird = d, s.any fun s => s.ipd = d⟩

/-! ## Parameter descriptors -/

/-- `ParameterDescriptor::Reset`. -/
def resetParamDesc (a : Handle) (s : OdbcHandleStmt) : World :=
  ((w.modifyHeader s.ipd fun h => { h with count := 0 }).modifyHeader s.curApd fun h =>
    { h with count := 0 }).setStmt a
      { s with paramsetIdx := 0, curParamsetIdx := 0, curParamIdx := 0 }

/-- `ParameterDescriptor::Clear`. -/
def clearParamDesc (a : Handle) (s : OdbcHandleStmt) : World :=
  ((w.modifyDesc s.ipd OdbcHandleDesc.reset).modifyDesc s.curApd
    OdbcHandleDesc.reset).resetParamDesc
    a s

/-- `ResetParams`. A negative count is a size that no vector has. -/
def resetParams (s : OdbcHandleStmt) (count : ℤ) : Except Fault World :=
  if count < 0 then .error .outOfRange
  else .ok ((w.modifyDesc s.ipd fun d => d.addMoreRecords count.toNat).modifyDesc s.curApd fun d =>
    d.addMoreRecords count.toNat)

/-- `FillIRD`, where `column` is the record made of a column of the result. -/
def fillIRD (s : OdbcHandleStmt) (columnCount : ℕ) (column : ℕ → DescRecord) : World :=
  w.modifyDesc s.ird fun d =>
    { d with header.count := 0, records := (List.range columnCount).map column }

/-- `FinalizeStmt` of the statement `p` that the engine prepared. -/
def finalizeStmt (a : Handle) (s : OdbcHandleStmt) (p : PreparedStatement)
    (column : ℕ → DescRecord) : Except Fault (SqlReturn × World) :=
  if p.error.isSome then .ok (.error, w.setStmt a { s with stmt := some p })
  else do
    let (ret, p) :=
      if p.boundAllParameters then (SqlReturn.success, p)
      else (.successWithInfo, { p with columnCount := 0 })
    let w ← (w.setStmt a { s with stmt := some p }).resetParams s (smallInt p.paramCount)
    return (ret, w.fillIRD s p.columnCount column)

/-- `BindParameterStmt`. -/
def bindParameterStmt (s : OdbcHandleStmt) (a : BindParameterArgs) : SqlReturn × World :=
  if a.inputOutputType ≠ 1 then (.error, w)
  else if a.parameterNumber < 1 then (.error, w)
  else
    let idx := a.parameterNumber - 1
    (.success, (w.modifyDesc s.ipd fun d => d.fillRecord idx (bindIpdRecord a)).modifyDesc s.apd
      fun d => d.fillRecord idx (bindApdRecord a))

/-! ## Execution -/

/-- `SetValue`, of the parameter at the index. -/
def setValue (s : OdbcHandleStmt) (source : ParamSource) (recIdx : ℕ) : Except Fault ReadCode := do
  let r ← w.record s.curApd recIdx
  let p ← w.record s.ipd recIdx
  match source r p (w.header s.curApd).bindOffsetPtr s.paramsetIdx with
  | .done code => return code
  | .withLength f => return f (← w.record s.apd recIdx).octetLength

/-- The loop of `GetParamValues` over the records. -/
def readRecords (s : OdbcHandleStmt) (source : ParamSource) : List ℕ → Except Fault SqlReturn
  | [] => .ok .success
  | recIdx :: rest => do
    match ← w.setValue s source recIdx with
    | .value => readRecords s source rest
    | .needData => return .needData
    | .failed =>
      if (w.header s.ipd).arrayStatusPtr = 0 then return .error
      else readRecords s source rest

/-- `SetParamIndex`, in the arithmetic of `idx_t`. -/
def setParamIndex (s : OdbcHandleStmt) : SqlReturn × OdbcHandleStmt :=
  let idx := (s.paramsetIdx + 1) % 2 ^ 64
  (if idx = (w.header s.curApd).arraySize then .success else .stillExecuting,
    { s with paramsetIdx := idx })

/-- `GetParamValues`. -/
def getParamValues (s : OdbcHandleStmt) (source : ParamSource) :
    Except Fault (SqlReturn × OdbcHandleStmt) := do
  if (w.records s.ipd).isEmpty then return (.success, s)
  else
    let ret ← w.readRecords s source (List.range (w.records s.ipd).length)
    if ret ≠ .success then return (ret, s) else return w.setParamIndex s

/-- `SingleExecuteStmt`, with the columns of the result if the statement was executed. -/
def singleExecuteStmt (s : OdbcHandleStmt) (source : ParamSource) (result : Option ℕ) :
    Except Fault (SqlReturn × OdbcHandleStmt × Option ℕ) := do
  let (ret, s) ← w.getParamValues s source
  if ret = .needData ∨ ret = .error then return (ret, s, none)
  else
    match s.stmt, result with
    | none, _ => .error .nullStmt
    | some _, none => return (.error, s, none)
    | some _, some columns =>
      return (if ret = .stillExecuting then .stillExecuting else .success, s, some columns)

/-- The state of the loop of `BatchExecuteStmt` : the statement, the columns of the last result and
the executions made so far. -/
structure Batch where
  s : OdbcHandleStmt
  columns : Option ℕ := none
  turn : ℕ := 0

/-- One turn of the loop of `BatchExecuteStmt`. -/
def batchBody (e : ExecAnswers) (b : Batch) : Except Fault (SqlReturn × Batch) := do
  let (ret, s, columns) ← w.singleExecuteStmt b.s e.source (e.results b.turn)
  return (ret, ⟨s, columns, b.turn + 1⟩)

/-- What `BatchExecuteStmt` does after its loop. -/
def batchFinish (a : Handle) (e : ExecAnswers) (ret : SqlReturn) (b : Batch) :
    Except Fault (SqlReturn × World) :=
  if ¬ret.succeeded then .ok (ret, w.setStmt a b.s)
  else if ¬e.fetches then .ok (.error, w.setStmt a b.s)
  else
    match b.s.stmt, b.columns with
    | none, _ => .error .nullStmt
    | some stmt, none => if stmt.boundAllParameters then .ok (ret, w.setStmt a b.s)
      else .error .nullRes
    | some stmt, some columns =>
      if stmt.boundAllParameters then .ok (ret, w.setStmt a b.s)
      else .ok (ret, (w.setStmt a { b.s with
        stmt := some { stmt with columnCount := columns } }).fillIRD b.s columns e.column)

/-- `BatchExecuteStmt`, with at most `n` turns of its loop. -/
def batchExecuteStmt (n : ℕ) (a : Handle) (s : OdbcHandleStmt) (e : ExecAnswers) :
    Option (Except Fault (SqlReturn × World)) :=
  (DoWhile.run (w.batchBody e) (· = .stillExecuting) n { s }).map fun x => do
    let (ret, b) ← x
    w.batchFinish a e ret b

/-- Reading the parameters steps the index of the parameter set, or leaves the statement. -/
theorem getParamValues_stmt {w : World} {s s' : OdbcHandleStmt} {source : ParamSource}
    {ret : SqlReturn} (h : w.getParamValues s source = .ok (ret, s')) :
    ∃ idx, s' = { s with paramsetIdx := idx } := by
  unfold getParamValues at h
  split_ifs at h
  · cases h
    exact ⟨s.paramsetIdx, rfl⟩
  · obtain ⟨ret', -, h⟩ := Outcome.bind_eq_ok.1 h
    split_ifs at h
    · cases h
      exact ⟨s.paramsetIdx, rfl⟩
    · cases h
      exact ⟨_, rfl⟩

theorem singleExecuteStmt_stmt {w : World} {s s' : OdbcHandleStmt} {source : ParamSource}
    {result columns : Option ℕ} {ret : SqlReturn}
    (h : w.singleExecuteStmt s source result = .ok (ret, s', columns)) :
    (∃ idx, s' = { s with paramsetIdx := idx }) ∧ (columns = none ∨ columns = result) := by
  unfold singleExecuteStmt at h
  obtain ⟨⟨ret', s''⟩, hread, h⟩ := Outcome.bind_eq_ok.1 h
  have hs := getParamValues_stmt hread
  dsimp only at h
  by_cases hret : ret' = .needData ∨ ret' = .error
  · rw [if_pos hret] at h
    cases h
    exact ⟨hs, .inl rfl⟩
  rw [if_neg hret] at h
  cases hstmt : s''.stmt with
  | none => simp [hstmt] at h
  | some stmt =>
    cases result with
    | none =>
      simp only [hstmt] at h
      cases h
      exact ⟨hs, .inl rfl⟩
    | some c =>
      simp only [hstmt] at h
      cases h
      exact ⟨hs, .inr rfl⟩

theorem batchFinish_cases {w w' : World} {a : Handle} {e : ExecAnswers} {ret ret' : SqlReturn}
    {b : Batch} (h : w.batchFinish a e ret b = .ok (ret', w')) :
    w' = w.setStmt a b.s ∨
    ∃ stmt columns, b.s.stmt = some stmt ∧ stmt.boundAllParameters = false ∧
      b.columns = some columns ∧
      w' = (w.setStmt a { b.s with stmt := some { stmt with columnCount := columns } }).fillIRD b.s
        columns e.column := by
  unfold batchFinish at h
  by_cases hret : ¬ret.succeeded
  · rw [if_pos hret] at h
    cases h
    exact .inl rfl
  rw [if_neg hret] at h
  by_cases hfetch : ¬e.fetches
  · rw [if_pos hfetch] at h
    cases h
    exact .inl rfl
  rw [if_neg hfetch] at h
  cases hstmt : b.s.stmt with
  | none => simp [hstmt] at h
  | some stmt =>
    cases hbound : stmt.boundAllParameters with
    | true =>
      cases hc : b.columns <;> simp only [hstmt, hc, hbound, if_true] at h <;> cases h <;>
        exact .inl rfl
    | false =>
      cases hc : b.columns with
      | none => simp [hstmt, hc, hbound] at h
      | some columns =>
        simp only [hstmt, hc, hbound, Bool.false_eq_true, if_false] at h
        cases h
        exact .inr ⟨stmt, columns, rfl, hbound, rfl, by rw [hbound]⟩

/-- What a batch does to the world : it leaves the statement where it read its parameters, and
fills its row descriptor with the columns of a result if they were not known before. -/
theorem batchExecuteStmt_cases {w w' : World} {n : ℕ} {a : Handle} {s : OdbcHandleStmt}
    {e : ExecAnswers} {ret : SqlReturn} (h : w.batchExecuteStmt n a s e = some (.ok (ret, w'))) :
    (∃ idx, w' = w.setStmt a { s with paramsetIdx := idx }) ∨
    ∃ idx stmt turn columns, s.stmt = some stmt ∧ stmt.boundAllParameters = false ∧
      e.results turn = some columns ∧
      w' = (w.setStmt a { s with
        paramsetIdx := idx
        stmt := some { stmt with columnCount := columns } }).fillIRD s columns e.column := by
  unfold batchExecuteStmt at h
  obtain ⟨x, hrun, hx⟩ := Option.map_eq_some_iff.1 h
  obtain ⟨⟨ret', b⟩, rfl, hfinish⟩ := Outcome.bind_eq_ok.1 hx
  have hb : (∃ idx, b.s = { s with paramsetIdx := idx }) ∧
      ∀ columns, b.columns = some columns → ∃ turn, e.results turn = some columns := by
    refine DoWhile.run_invariant (w.batchBody e) (· = .stillExecuting)
      (fun b => ∃ idx, b.s = { s with paramsetIdx := idx })
      (fun x => ∀ p, x = .ok p → (∃ idx, p.2.s = { s with paramsetIdx := idx }) ∧
        ∀ columns, p.2.columns = some columns → ∃ turn, e.results turn = some columns)
      (fun _ _ _ _ _ hp => nomatch hp) ?_ ?_ ⟨s.paramsetIdx, rfl⟩ hrun _ rfl
    · rintro b r b' ⟨idx, hidx⟩ hbody -
      obtain ⟨⟨r', s', columns⟩, hsingle, hret⟩ := Outcome.bind_eq_ok.1 hbody
      obtain ⟨⟨idx', rfl⟩, -⟩ := singleExecuteStmt_stmt hsingle
      cases hret
      exact ⟨idx', by rw [hidx]⟩
    · rintro b r b' ⟨idx, hidx⟩ hbody - p hp
      obtain rfl := Except.ok.inj hp
      obtain ⟨⟨r', s', columns⟩, hsingle, hret⟩ := Outcome.bind_eq_ok.1 hbody
      obtain ⟨⟨idx', rfl⟩, hcolumns⟩ := singleExecuteStmt_stmt hsingle
      cases hret
      refine ⟨⟨idx', by rw [hidx]⟩, fun c hc => ⟨b.turn, ?_⟩⟩
      rcases hcolumns with rfl | rfl
      · cases hc
      · exact hc
  obtain ⟨⟨idx, hs⟩, hcolumns⟩ := hb
  rcases batchFinish_cases hfinish with rfl | ⟨stmt, columns, hstmt, hbound, hc, rfl⟩
  · exact .inl ⟨idx, by rw [hs]⟩
  · obtain ⟨turn, hturn⟩ := hcolumns columns hc
    rw [hs] at hstmt
    exact .inr ⟨idx, stmt, turn, columns, hstmt, hbound, hturn, by rw [hs]; rfl⟩

/-! ## Copies -/

/-- The loop of `SQLCopyDesc` over the statements of the connection : the check that fails. -/
def copyCheck (source target : Handle) : List OdbcHandleStmt → Option (Handle × String × String)
  | [] => none
  | s :: rest =>
    if target = s.ird then
      some (target, "Cannot modify an implementation row descriptor.", "HY016")
    else if source = s.ird ∧ s.stmt.isNone then
      some (source, "Associated statement is not prepared.", "HY007")
    else copyCheck source target rest

/-- `SQLCopyDesc`. Between descriptors of one connection only a pointer is assigned, and between
connections of different environments nothing is done (`CopyFieldByField`). -/
def sqlCopyDesc (source target : Handle) : SqlReturn × World :=
  match w.descs source, w.descs target with
  | some src, some tgt =>
    match copyCheck source target ((w.vecStmtRef src.dbc).filterMap w.stmts) with
    | some (d, msg, sqlState) =>
      (.error, w.modifyDesc d fun x => (x.setDiagnosticRecord .error "SQLCopyDesc" msg sqlState).2)
    | none =>
      (.success,
        if src.dbc ≠ tgt.dbc ∧ w.env src.dbc = w.env tgt.dbc then
          w.modifyDesc target fun x => x.copyOnlyOdbcFields src
        else w)
  | _, _ => (.invalidHandle, w)

/-! ## Attributes -/

/-- `SQL_ATTR_PARAMSET_SIZE`. -/
def setParamsetSize (s : OdbcHandleStmt) (size : ℕ) : World :=
  w.modifyHeader s.apd fun h => { h with arraySize := size }

/-- `SQLGetStmtAttr` of it. -/
def getParamsetSize (s : OdbcHandleStmt) : ℕ := (w.header s.apd).arraySize

/-- `SetBindOffesetPtr`. -/
def setBindOffsetPtr (s : OdbcHandleStmt) (ptr : Addr) : World :=
  w.modifyHeader s.apd fun h => { h with bindOffsetPtr := ptr }

/-- `GetBindOffesetPtr`. -/
def getBindOffsetPtr (s : OdbcHandleStmt) : Addr := (w.header s.apd).bindOffsetPtr

/-- `SQL_ATTR_ROW_ARRAY_SIZE`. -/
def setRowArraySize (s : OdbcHandleStmt) (size : ℕ) : World :=
  if size = 0 then w else w.modifyHeader s.ard fun h => { h with arraySize := size }

/-- `SQLGetStmtAttr` of it. -/
def getRowArraySize (s : OdbcHandleStmt) : ℕ := (w.header s.ard).arraySize

/-- `SQL_ATTR_ROW_BIND_TYPE`, of a value that the cast to `SQLINTEGER` keeps. -/
def setRowBindType (s : OdbcHandleStmt) (size : ℤ) : SqlReturn × World :=
  if size = 0 then (.error, w)
  else (.success, w.modifyHeader s.ard fun h => { h with bindType := size })

/-- `SQLGetStmtAttr` of it. -/
def getRowBindType (s : OdbcHandleStmt) : ℤ := (w.header s.ard).bindType

/-- The header that a fetch reads : the rows of a rowset and how they are bound. -/
def fetchHeader (s : OdbcHandleStmt) : DescHeader := w.header s.ard

/-- The header that an execution reads : the parameter sets and the offset of their bindings. -/
def execHeader (s : OdbcHandleStmt) : DescHeader := w.header s.curApd

end World

/-! ## Calls -/

/-- The calls on statements and descriptors, with the answers of the engine that they ask for. -/
inductive Call
  | handles (i : Action)
  | prepare (a : Handle) (p : PreparedStatement) (column : ℕ → DescRecord)
  | execute (a : Handle) (e : ExecAnswers)
  | bindParameter (a : Handle) (args : BindParameterArgs)
  | close (a : Handle)
  | resetParams (a : Handle)
  | setParamsetSize (a : Handle) (size : ℕ)
  | setBindOffsetPtr (a : Handle) (ptr : Addr)
  | setRowArraySize (a : Handle) (size : ℕ)
  | setRowBindType (a : Handle) (size : ℤ)
  | setDescField (d : Handle) (recNumber : ℤ) (f : DescField)
  | setDescRec (d : Handle) (recNumber type length precision scale : ℤ) (args : Addr × Addr × Addr)
  | copyDesc (source target : Handle)

namespace World

variable (w : World)

/-- A call on a statement : what `body` does once the handle is converted. -/
def callStmt (a : Handle) (body : OdbcHandleStmt → Option (Except Fault (SqlReturn × World))) :
    Option (Except Fault (SqlReturn × World)) :=
  match w.convertHSTMT a with
  | none => some (.error .nullStmt)
  | some (ret, s) => if ret = .success then body s else some (.ok (ret, w))

/-- The outcome of a call without loops that returns the world. -/
def done (w : World) : Option (Except Fault (SqlReturn × World)) := some (.ok (.success, w))

/-- One call, with at most `n` turns of its loop. -/
def call (findDataType : ℤ → Option OdbcTypeInfo) (n : ℕ) :
    Call → Option (Except Fault (SqlReturn × World))
  | .handles i =>
    match w.perform i with
    | none => some (.error .nullStmt)
    | some w => done w
  | .prepare a p column => w.callStmt a fun s => some (w.finalizeStmt a s p column)
  | .execute a e => w.callStmt a fun s => w.batchExecuteStmt n a s e
  | .bindParameter a args => w.callStmt a fun s => some (.ok (w.bindParameterStmt s args))
  | .close a => w.callStmt a fun s => done (w.resetParamDesc a s)
  | .resetParams a => w.callStmt a fun s => done (w.clearParamDesc a s)
  | .setParamsetSize a size => w.callStmt a fun s => done (w.setParamsetSize s size)
  | .setBindOffsetPtr a ptr => w.callStmt a fun s => done (w.setBindOffsetPtr s ptr)
  | .setRowArraySize a size => w.callStmt a fun s => done (w.setRowArraySize s size)
  | .setRowBindType a size => w.callStmt a fun s => some (.ok (w.setRowBindType s size))
  | .setDescField d recNumber f => done (w.modifyDesc d fun x =>
      (x.setDescField findDataType (w.kind d) recNumber f).2)
  | .setDescRec d recNumber type length precision scale args => done (w.modifyDesc d fun x =>
      (x.sqlSetDescRec findDataType (w.kind d) recNumber type length precision scale args).2)
  | .copyDesc source target => some (.ok (w.sqlCopyDesc source target))

/-- What the application sees to : the handles are live, and numbers are of their types. -/
def CallAllowed : Call → Prop
  | .handles i => w.Allowed i
  | .prepare a _ _ | .execute a _ | .close a | .resetParams a | .setParamsetSize a _
  | .setBindOffsetPtr a _ | .setRowArraySize a _ | .setRowBindType a _ => (w.stmts a).isSome
  | .bindParameter a args => (w.stmts a).isSome ∧ args.parameterNumber < 2 ^ 16
  | .setDescField d recNumber _ | .setDescRec d recNumber _ _ _ _ _ =>
    (w.descs d).isSome ∧ recNumber < 2 ^ 15
  | .copyDesc source target => (w.descs source).isSome ∧ (w.descs target).isSome

end World

/-- A call that is allowed and returns. -/
structure Calls (findDataType : ℤ → Option OdbcTypeInfo) (w : World) (c : Call) (w' : World) :
    Prop where
  allowed : w.CallAllowed c
  returns : ∃ n ret, w.call findDataType n c = some (.ok (ret, w'))

namespace World

variable {w : World}

/-- What a call on a statement that returns did. -/
theorem callStmt_cases {a : Handle}
    {body : OdbcHandleStmt → Option (Except Fault (SqlReturn × World))} {ret : SqlReturn}
    {w' : World}
    (h : w.callStmt a body = some (.ok (ret, w'))) :
    ∃ s, w.stmts a = some s ∧ (w.conn s.dbc = true ∧ body s = some (.ok (ret, w')) ∨
      w.conn s.dbc = false ∧ ret = .error ∧ w' = w) := by
  unfold callStmt convertHSTMT at h
  cases hs : w.stmts a with
  | none => simp [hs] at h
  | some s =>
    refine ⟨s, rfl, ?_⟩
    cases hconn : w.conn s.dbc with
    | true => exact .inl ⟨rfl, by simpa [hs, hconn] using h⟩
    | false =>
      simp only [hs, hconn, Option.bind_eq_bind, Option.bind_some] at h
      exact .inr ⟨rfl, by simpa [eq_comm] using h⟩

end World

end HaybarnOdbc.Desc
