import HaybarnOdbc.Cursor
import HaybarnOdbc.Lib.MachineInt

/-!
# Parameters and execution

`GetParamValues` reads one parameter set of the bound arrays, at `paramset_idx`, and steps
that index (`SetParamIndex`); `SingleExecuteStmt` executes the prepared statement once
with the values read, and `BatchExecuteStmt` repeats it while a set is left.

How a value is decoded from the application's buffers is the parameter `ParamSource`, the
outcome of `SetValue` by record and set. What the engine answers to the executions of a
call are the results of `ExecAnswers`, in order. The log of a call records the sets it
read and the runs of the prepared statement.
-/

namespace HaybarnOdbc

variable {ρ V : Type}

/-- The outcome of decoding a parameter : a value, a parameter whose data comes at
execution time, or an error code. -/
inductive ParamRead (V : Type)
  | value (v : V)
  | needData
  | failed (ret : SqlReturn)

/-- What `SetValue` finds for a record in a parameter set. -/
abbrev ParamSource (V : Type) := ℕ → ℕ → ParamRead V

/-- What an execution did : the reset of the count of fetched rows, the parameter set it
read, the status it stored for a set, the number of sets it reported as processed, and the
run of the statement with its values. -/
inductive ExecEvent (V : Type)
  | rowsFetchedReset
  | readSet (set : ℕ)
  | paramStatus (set : ℕ) (ret : SqlReturn)
  | processed (n : ℕ)
  | run (values : List V)

/-- `std::vector::resize`. -/
def resize {α : Type} (l : List α) (n : ℕ) (fill : α) : List α :=
  l.take n ++ List.replicate (n - l.length) fill

@[simp] theorem length_resize {α : Type} (l : List α) (n : ℕ) (fill : α) :
    (resize l n fill).length = n := by
  simp only [resize, List.length_append, List.length_take, List.length_replicate]
  omega

namespace ParameterDescriptor

/-- `ParameterDescriptor::Reset`. -/
def reset (p : ParameterDescriptor V) : ParameterDescriptor V :=
  { p with
    ipd.header.count := 0
    apd.header.count := 0
    paramsetIdx := 0
    curParamsetIdx := 0
    curParamIdx := 0 }

/-- `ParameterDescriptor::Clear`. -/
def clear (p : ParameterDescriptor V) : ParameterDescriptor V :=
  { p with ipd.records := [], apd.records := [] }.reset

/-- `ParameterDescriptor::ResetParams`. It leaves `paramset_idx` as it is. -/
def resetParams (p : ParameterDescriptor V) (count : ℕ) : ParameterDescriptor V :=
  { p with
    ipd.records := resize p.ipd.records count {}
    ipd.header.count := count
    apd.records := resize p.apd.records count {}
    apd.header.count := count }

/-- `HasParamSetToProcess`. -/
def hasParamSetToProcess (p : ParameterDescriptor V) : Bool :=
  p.paramsetIdx < p.apd.header.arraySize ∧ ¬p.ipd.records.isEmpty

/-- `SetValue(value, val_idx)` : append the value or replace the one at its index. -/
def putValue (p : ParameterDescriptor V) (v : V) (valIdx : ℕ) : ParameterDescriptor V :=
  if p.values.length ≤ valIdx then { p with values := p.values ++ [v] }
  else { p with values := p.values.set valIdx v }

/-- `SetValue(rec_idx)`, at the current parameter set. -/
def setValue (p : ParameterDescriptor V) (source : ParamSource V) (recIdx : ℕ) :
    SqlReturn × ParameterDescriptor V :=
  match source recIdx p.paramsetIdx with
  | .value v => (.success, p.putValue v recIdx)
  | .needData => (.needData, p)
  | .failed ret => (ret, p)

/-- `SetParamIndex`, in the arithmetic of `idx_t`. -/
def setParamIndex (p : ParameterDescriptor V) :
    SqlReturn × ParameterDescriptor V × List (ExecEvent V) :=
  let idx := (p.paramsetIdx + 1) % 2 ^ 64
  (if idx = p.apd.header.arraySize then .success else .stillExecuting,
    { p with paramsetIdx := idx },
    if p.ipd.header.rowsProcessedPtr ≠ 0 then [.processed idx] else [])

/-- `OdbcHandleDesc::GetDescRecord` : the descriptor with a record at `idx`. -/
def growTo (d : ParamDesc) (idx : ℕ) : ParamDesc :=
  if d.records.length ≤ idx then
    { header := { d.header with count := idx + 1 }, records := resize d.records (idx + 1) {} }
  else d

end ParameterDescriptor

/-- `DescRecord::SetSqlDataType`. The interval C types are the codes `101` to `113`, each
`100` above its interval code, so that it does not fail. -/
def DescRecord.setSqlDataType (r : DescRecord) (type : ℤ) : DescRecord :=
  if 101 ≤ type ∧ type ≤ 113 then
    { r with type := 10, conciseType := type, datetimeIntervalCode := type - 100 }
  else { r with type := type, conciseType := type }

/-- The arguments of `SQLBindParameter`. -/
structure BindParameterArgs where
  parameterNumber : ℕ
  inputOutputType : ℤ
  valueType : ℤ
  parameterType : ℤ
  columnSize : ℕ
  decimalDigits : ℤ
  parameterValuePtr : Addr
  bufferLength : ℤ
  strLenOrIndPtr : Addr

/-- The engine's part in one execution call : the parameter data, and the result of each
execution of the prepared statement that the call makes. -/
structure ExecAnswers (ρ V : Type) where
  source : ParamSource V
  results : ℕ → QueryResult ρ

namespace OdbcHandleStmt

/-- What an execution did : its code, the handle after it and its log. -/
structure Executed (ρ V : Type) where
  ret : SqlReturn
  h : OdbcHandleStmt ρ V
  log : List (ExecEvent V)

/-- The loop of `GetParamValues` over the records. -/
def readRecords (source : ParamSource V) :
    List ℕ → List V → OdbcHandleStmt ρ V → List (ExecEvent V) →
      Except Fault (List V × Executed ρ V)
  | [], values, h, log => .ok (values, ⟨.success, h, log⟩)
  | recIdx :: rest, values, h, log =>
    let set := h.paramDesc.paramsetIdx
    let (ret, p) := h.paramDesc.setValue source recIdx
    let h := { h with paramDesc := p }
    let hasStatus := p.ipd.header.arrayStatusPtr ≠ 0
    let log := log ++ if hasStatus then [.paramStatus set ret] else []
    if ret = .needData then .ok (values, ⟨.needData, h, log⟩)
    else
      let h :=
        if ret ≠ .success then
          (h.setDiagnosticRecord .successWithInfo "GetParamValues"
            "Failed to set parameter value" .st01000).2
        else h
      if ret ≠ .success ∧ ¬hasStatus then .ok (values, ⟨.error, h, log⟩)
      else
        -- `GetNextValue`, which is the value of an earlier set if this one had none
        match p.values[recIdx]? with
        | none => .error .outOfRange
        | some v => readRecords source rest (values ++ [v]) h log

/-- `GetParamValues`. -/
def getParamValues (source : ParamSource V) (h : OdbcHandleStmt ρ V) :
    Except Fault (List V × Executed ρ V) := do
  if h.paramDesc.ipd.records.isEmpty then return ([], ⟨.success, h, []⟩)
  else
    let (values, x) ← readRecords source (List.range h.paramDesc.ipd.records.length) [] h
      [.readSet h.paramDesc.paramsetIdx]
    if x.ret ≠ .success then return (values, x)
    else
      let (ret, p, log) := x.h.paramDesc.setParamIndex
      return (values, ⟨ret, { x.h with paramDesc := p }, x.log ++ log⟩)

/-- `SingleExecuteStmt`, where the engine answers `result` to the execution. -/
def singleExecuteStmt (source : ParamSource V) (result : QueryResult ρ)
    (h : OdbcHandleStmt ρ V) : Except Fault (Executed ρ V) := do
  let h := { h with res := none, odbcFetcher := h.odbcFetcher.clearChunks, opened := false }
  let (values, x) ← h.getParamValues source
  let x := if h.rowsFetchedPtr ≠ 0 then { x with log := .rowsFetchedReset :: x.log } else x
  if x.ret = .needData ∨ x.ret = .error then return x
  else
    match x.h.stmt with
    | none => .error .nullStmt
    | some _ =>
      let log := x.log ++ [.run values]
      let h := { x.h with res := some result }
      match result.error with
      | some msg =>
        let (ret, h) := h.setDiagnosticRecord .error "SingleExecuteStmt" msg .stHY000
        return ⟨ret, h, log⟩
      | none =>
        let h := { h with opened := true }
        if x.ret = .stillExecuting then return ⟨.stillExecuting, h, log⟩
        else return ⟨.success, h, log⟩

/-- The state of the loop of `BatchExecuteStmt` : the handle, the executions made so far
and the log. -/
structure Batch (ρ V : Type) where
  h : OdbcHandleStmt ρ V
  turn : ℕ
  log : List (ExecEvent V)

/-- One turn of the loop of `BatchExecuteStmt`. -/
def batchBody (a : ExecAnswers ρ V) (b : Batch ρ V) : Except Fault (SqlReturn × Batch ρ V) := do
  let x ← b.h.singleExecuteStmt a.source (a.results b.turn)
  return (x.ret, ⟨x.h, b.turn + 1, b.log ++ x.log⟩)

/-- What `BatchExecuteStmt` does after its loop : fetch the first chunk, and take over the
columns of the result if they were not known before. -/
def batchFinish (ret : SqlReturn) (h : OdbcHandleStmt ρ V) (log : List (ExecEvent V)) :
    Except Fault (Executed ρ V) := do
  if ¬ret.succeeded then return ⟨ret, h, log⟩
  else
    let (fetchRet, h) ← h.fetchFirst
    if fetchRet = .error then return ⟨fetchRet, h, log⟩
    else
      match h.stmt with
      | none => .error .nullStmt
      | some stmt =>
        if stmt.boundAllParameters then return ⟨ret, h, log⟩
        else
          match h.res with
          | none => .error .nullRes
          | some res =>
            return ⟨ret, { h with
              stmt := some { stmt with columnCount := res.columnCount }
              boundCols := resize h.boundCols res.columnCount {} }, log⟩

/-- `BatchExecuteStmt`, with at most `n` turns of its loop. -/
def batchExecuteStmt (n : ℕ) (a : ExecAnswers ρ V) (h : OdbcHandleStmt ρ V) :
    Option (Except Fault (Executed ρ V)) :=
  (DoWhile.run (batchBody a) (· = .stillExecuting) n ⟨h, 0, []⟩).map fun x => do
    let (ret, b) ← x
    batchFinish ret b.h b.log

/-! ## Preparing -/

/-- `PrepareQuery`. It leaves `open` as it is. -/
def prepareQuery (h : OdbcHandleStmt ρ V) : OdbcHandleStmt ρ V :=
  { h with stmt := none, res := none, odbcFetcher := h.odbcFetcher.clearChunks }

/-- `FinalizeStmt` of the statement `p` that the engine prepared. -/
def finalizeStmt (h : OdbcHandleStmt ρ V) (p : PreparedStatement) :
    SqlReturn × OdbcHandleStmt ρ V :=
  match p.error with
  | some msg => { h with stmt := some p }.setDiagnosticRecord .error "PrepareStmt" msg .st42000
  | none =>
    let (ret, h, p) :=
      if p.boundAllParameters then (SqlReturn.success, h, p)
      else
        let (ret, h) := h.setDiagnosticRecord .successWithInfo "PrepareStmt"
          "Not all parameters are bound" .st01000
        (ret, h, { p with columnCount := 0 })
    (ret, { h with
      stmt := some p
      paramDesc := h.paramDesc.resetParams p.paramCount
      boundCols := resize h.boundCols p.columnCount {} })

/-- What the engine makes of one statement of a query text : the prepared statement and
the answers to its execution. -/
structure StatementAnswer (ρ V : Type) where
  prepared : PreparedStatement
  exec : ExecAnswers ρ V

/-- The loop of `ExecDirectStmt` over the statements of the text, with at most `n` turns
of each batch. `ret` is the code so far and `info` whether one was success with info. -/
def execDirectLoop (n : ℕ) :
    List (StatementAnswer ρ V) → SqlReturn → Bool → OdbcHandleStmt ρ V → List (ExecEvent V) →
      Option (Except Fault (Executed ρ V))
  | [], ret, info, h, log => some (.ok ⟨if info then .successWithInfo else ret, h, log⟩)
  | s :: rest, _, info, h, log =>
    let (ret, h) := h.finalizeStmt s.prepared
    if s.prepared.error.isSome ∨ ¬ret.succeeded then some (.ok ⟨ret, h, log⟩)
    else
      let info := info || (ret = .successWithInfo : Bool)
      match h.batchExecuteStmt n s.exec with
      | none => none
      | some (.error e) => some (.error e)
      | some (.ok x) =>
        if ¬x.ret.succeeded then some (.ok ⟨x.ret, x.h, log ++ x.log⟩)
        else execDirectLoop n rest x.ret (info || (x.ret = .successWithInfo : Bool)) x.h
          (log ++ x.log)

/-- `ExecDirectStmt` of a text that the engine extracts to `statements`, or refuses. -/
def execDirectStmt (n : ℕ) (statements : Except String (List (StatementAnswer ρ V)))
    (h : OdbcHandleStmt ρ V) : Option (Except Fault (Executed ρ V)) :=
  let h := h.prepareQuery
  match statements with
  | .error msg =>
    let (ret, h) := h.setDiagnosticRecord .error "SQLExecDirect" msg .st42000
    some (.ok ⟨ret, h, []⟩)
  | .ok statements => execDirectLoop n statements .success false h []

/-- `BindParameterStmt`. -/
def bindParameterStmt (h : OdbcHandleStmt ρ V) (a : BindParameterArgs) :
    SqlReturn × OdbcHandleStmt ρ V :=
  if a.inputOutputType ≠ 1 then
    h.setDiagnosticRecord .error "SQLBindParameter" "Only SQL_PARAM_INPUT is supported." .stHYC00
  else if a.parameterNumber < 1 then
    h.setDiagnosticRecord .error "SQLBindParameter" "Invalid descriptor index." .st07009
  else
    let idx := a.parameterNumber - 1
    let setIpd (r : DescRecord) : DescRecord :=
      { r with
        parameterType := a.inputOutputType
        length := a.columnSize
        precision := MachineInt.i16.wrap a.columnSize
        scale := a.decimalDigits }.setSqlDataType a.parameterType
    let setApd (r : DescRecord) : DescRecord :=
      { r.setSqlDataType a.valueType with
        dataPtr := a.parameterValuePtr
        octetLength := a.bufferLength
        indicatorPtr := a.strLenOrIndPtr
        octetLengthPtr := a.strLenOrIndPtr }
    let ipd := ParameterDescriptor.growTo h.paramDesc.ipd idx
    let apd := ParameterDescriptor.growTo h.paramDesc.apd idx
    (.success, { h with
      paramDesc.ipd := { ipd with records := ipd.records.modify idx setIpd }
      paramDesc.apd := { apd with records := apd.records.modify idx setApd } })

/-- `OdbcHandleStmt::Close`. -/
def close (h : OdbcHandleStmt ρ V) : OdbcHandleStmt ρ V :=
  { h with
    opened := false
    res := none
    odbcFetcher := h.odbcFetcher.clearChunks
    paramDesc := h.paramDesc.reset }

end OdbcHandleStmt

end HaybarnOdbc
