import HaybarnOdbc.EngineError
import HaybarnOdbc.Statements

/-!
# A text of several statements

`ExecDirectStmt` prepares and executes the statements of a text one after the other, all on
one handle. To what `execDirectLoop` computes the definitions here add what is submitted to
the engine, and the records of the implementation row descriptor that `FillIRD` makes; the
handle and the code are the same (`execDirectStmt_executed`).

Of a statement without parameters the answers of the engine say whether it succeeds
(`Succeeds`). One turn of the loop is then a single execution (`batchExecuteStmt_once`), and
what is submitted stops behind the first statement that fails (`mem_submissions`,
`pairwise_submissions`). Each statement clears the fetcher and takes over the columns, so
that a successful text leaves the handle in front of the result of its last statement
(`AtResult`).
-/

namespace HaybarnOdbc

variable {ρ V : Type}

/-- What the engine is asked to do : to prepare the statement at an index of the text, or to
execute it with these values. -/
inductive Submission (V : Type)
  | prepare (i : ℕ)
  | execute (i : ℕ) (values : List V)

/-- Where in the order of the text it has its place. -/
def Submission.rank : Submission V → ℕ
  | .prepare i => 2 * i
  | .execute i _ => 2 * i + 1

/-- A statement of a text, with the records that `FillIRD` makes of its columns and of those of
its result. -/
structure DirectStatement (ρ V : Type) extends OdbcHandleStmt.StatementAnswer ρ V where
  column : ℕ → Desc.DescRecord
  resultColumn : ℕ → Desc.DescRecord

/-- The state of the loop of `ExecDirectStmt`. -/
structure Direct (ρ V : Type) where
  h : OdbcHandleStmt ρ V
  ird : Desc.OdbcHandleDesc
  submitted : List (Submission V)
  log : List (ExecEvent V)

/-- `FillIRD`, where `column` is the record made of a column of the statement. -/
def fillIRD (columnCount : ℕ) (column : ℕ → Desc.DescRecord) (ird : Desc.OdbcHandleDesc) :
    Desc.OdbcHandleDesc :=
  { ird.reset with header.count := 0, records := (List.range columnCount).map column }

example (w : Desc.World) (s : Desc.OdbcHandleStmt) (columnCount : ℕ)
    (column : ℕ → Desc.DescRecord) :
    w.fillIRD s columnCount column = w.modifyDesc s.ird (fillIRD columnCount column) :=
  rfl

/-- The runs of a prepared statement, as submissions of the statement at the index. -/
def executions (i : ℕ) (log : List (ExecEvent V)) : List (Submission V) :=
  log.filterMap fun
    | .run values => some (.execute i values)
    | _ => none

namespace Direct

/-- `hstmt->stmt = conn->Prepare(statement)` and `FinalizeStmt`. -/
def finalizeStmt (d : Direct ρ V) (i : ℕ) (s : DirectStatement ρ V) : SqlReturn × Direct ρ V :=
  let (ret, h) := d.h.finalizeStmt s.prepared
  let ird :=
    if s.prepared.error.isSome then d.ird
    else fillIRD s.prepared.knownColumns s.column d.ird
  (ret, { d with h := h, ird := ird, submitted := d.submitted ++ [.prepare i] })

/-- The state after `BatchExecuteStmt` did `x`. It fills the descriptor if it comes to its end
and the columns were not known before. -/
def after (d : Direct ρ V) (i : ℕ) (s : DirectStatement ρ V) (x : OdbcHandleStmt.Executed ρ V) :
    Direct ρ V :=
  let ird :=
    match x.h.stmt with
    | some stmt =>
      if x.ret.succeeded ∧ ¬stmt.boundAllParameters then
        fillIRD stmt.columnCount s.resultColumn d.ird
      else d.ird
    | none => d.ird
  ⟨x.h, ird, d.submitted ++ executions i x.log, d.log ++ x.log⟩

/-- `BatchExecuteStmt`. -/
def batchExecuteStmt (n : ℕ) (d : Direct ρ V) (i : ℕ) (s : DirectStatement ρ V) :
    Option (Except Fault (SqlReturn × Direct ρ V)) :=
  (d.h.batchExecuteStmt n s.exec).map fun x => x.map fun x => (x.ret, d.after i s x)

/-- The loop of `ExecDirectStmt` from the statement at the index on, with at most `n` turns of
each batch. -/
def execDirectLoop (n : ℕ) :
    ℕ → List (DirectStatement ρ V) → SqlReturn → Bool → Direct ρ V →
      Option (Except Fault (SqlReturn × Direct ρ V))
  | _, [], ret, info, d => some (.ok (if info then .successWithInfo else ret, d))
  | i, s :: rest, _, info, d =>
    let (ret, d) := d.finalizeStmt i s
    if s.prepared.error.isSome ∨ ¬ret.succeeded then some (.ok (ret, d))
    else
      let info := info || (ret = .successWithInfo : Bool)
      match d.batchExecuteStmt n i s with
      | none => none
      | some (.error e) => some (.error e)
      | some (.ok (ret, d)) =>
        if ¬ret.succeeded then some (.ok (ret, d))
        else execDirectLoop n (i + 1) rest ret (info || (ret = .successWithInfo : Bool)) d

/-- `ExecDirectStmt` of a text that the engine extracts to `statements`. -/
def execDirectStmt (n : ℕ) (statements : List (DirectStatement ρ V)) (h : OdbcHandleStmt ρ V)
    (ird : Desc.OdbcHandleDesc) : Option (Except Fault (SqlReturn × Direct ρ V)) :=
  execDirectLoop n 0 statements .success false ⟨h.prepareQuery, ird, [], []⟩

/-- The part of an outcome that `OdbcHandleStmt.execDirectStmt` returns. -/
def executed (x : SqlReturn × Direct ρ V) : OdbcHandleStmt.Executed ρ V :=
  ⟨x.1, x.2.h, x.2.log⟩

/-- A batch that returns is taken over. -/
theorem batchExecuteStmt_ok {n : ℕ} {d : Direct ρ V} (i : ℕ) {s : DirectStatement ρ V}
    {x : OdbcHandleStmt.Executed ρ V} (hx : d.h.batchExecuteStmt n s.exec = some (.ok x)) :
    d.batchExecuteStmt n i s = some (.ok (x.ret, d.after i s x)) := by
  rw [batchExecuteStmt, hx]
  rfl

/-- A turn of the loop, once the statement is prepared. -/
theorem execDirectLoop_cons (n i : ℕ) {s : DirectStatement ρ V} (rest : List (DirectStatement ρ V))
    (ret : SqlReturn) (info : Bool) {d d₁ : Direct ρ V} {ret₁ : SqlReturn}
    (hfin : d.finalizeStmt i s = (ret₁, d₁))
    (hgo : ¬(s.prepared.error.isSome ∨ ¬ret₁.succeeded)) :
    execDirectLoop n i (s :: rest) ret info d =
      match d₁.batchExecuteStmt n i s with
      | none => none
      | some (.error e) => some (.error e)
      | some (.ok (ret₂, d₂)) =>
        if ¬ret₂.succeeded then some (.ok (ret₂, d₂))
        else execDirectLoop n (i + 1) rest ret₂ (info || (ret₁ = .successWithInfo : Bool) ||
          (ret₂ = .successWithInfo : Bool)) d₂ := by
  rw [execDirectLoop]
  simp only [hfin]
  exact if_neg hgo

/-- The loop does to the handle what `OdbcHandleStmt.execDirectLoop` does. -/
theorem execDirectLoop_executed (n : ℕ) :
    ∀ (statements : List (DirectStatement ρ V)) (i : ℕ) (ret : SqlReturn) (info : Bool)
      (d : Direct ρ V),
      (execDirectLoop n i statements ret info d).map (fun x => x.map executed) =
        OdbcHandleStmt.execDirectLoop n (statements.map fun s => s.toStatementAnswer) ret info
          d.h d.log
  | [], i, ret, info, d => rfl
  | s :: rest, i, ret, info, d => by
    rw [List.map_cons]
    rcases hfin : d.h.finalizeStmt s.prepared with ⟨ret₁, h₁⟩
    have hfin' : (d.finalizeStmt i s).1 = ret₁ ∧ (d.finalizeStmt i s).2.h = h₁ ∧
        (d.finalizeStmt i s).2.log = d.log := by
      simp [finalizeStmt, hfin]
    rcases hstate : d.finalizeStmt i s with ⟨ret₂, d₁⟩
    rw [hstate] at hfin'
    obtain ⟨rfl, rfl, hlog⟩ := hfin'
    by_cases hstop : s.prepared.error.isSome ∨ ¬ret₂.succeeded
    · rw [execDirectLoop, OdbcHandleStmt.execDirectLoop]
      simp only [hstate, hfin, if_pos hstop]
      rw [← hlog]
      rfl
    · rw [execDirectLoop_cons n i rest ret info hstate hstop,
        OdbcHandleStmt.execDirectLoop_cons n _ ret info d.log hfin hstop]
      rcases hx : d₁.h.batchExecuteStmt n s.exec with _ | e | x
      · rw [batchExecuteStmt, hx]
        rfl
      · rw [batchExecuteStmt, hx]
        rfl
      · rw [batchExecuteStmt_ok i hx]
        dsimp only
        by_cases hret : ¬x.ret.succeeded = true
        · rw [if_pos hret, if_pos hret, ← hlog]
          rfl
        · rw [if_neg hret, if_neg hret, ← hlog]
          exact execDirectLoop_executed n rest _ _ _ _

/-- What is submitted and the descriptor apart, a text does what `SQLExecDirect` does. -/
theorem execDirectStmt_executed (n : ℕ) (statements : List (DirectStatement ρ V))
    (h : OdbcHandleStmt ρ V) (ird : Desc.OdbcHandleDesc) :
    (execDirectStmt n statements h ird).map (fun x => x.map executed) =
      h.execDirectStmt n (.ok (statements.map fun s => s.toStatementAnswer)) :=
  execDirectLoop_executed n statements 0 .success false _

end Direct

/-! ## One statement without parameters -/

namespace QueryResult

variable (result : QueryResult ρ)

/-- The execution did not fail, and a first chunk or the end of the result is there. -/
def Delivers : Prop :=
  result.error = none ∧ ¬(result.pending.isEmpty ∧ result.failure.isSome)

instance : Decidable result.Delivers :=
  inferInstanceAs (Decidable (_ ∧ ¬_))

/-- The chunk that the first `Fetch` gives. -/
def firstChunk : Option (DataChunk ρ) :=
  match result.fetch.1 with
  | .chunk c => some c
  | _ => none

end QueryResult

namespace OdbcHandleStmt

/-- The handle is in front of the result. Its first chunk was taken if it has one, and nothing
else is stored. -/
structure AtResult (result : QueryResult ρ) (h : OdbcHandleStmt ρ V) : Prop where
  opened : h.opened = true
  res : h.res = some result.fetch.2
  chunks : h.odbcFetcher.chunks = result.firstChunk.toList
  current : h.odbcFetcher.currentChunk = result.firstChunk
  idx : h.odbcFetcher.currentChunkIdx = 0
  chunkRow : h.odbcFetcher.chunkRow = -1
  priorChunkRow : h.odbcFetcher.priorChunkRow = -1
  rowCount : h.odbcFetcher.rowCount = 0
  seen : h.odbcFetcher.resultsetEnd = result.pending.isEmpty
  lastFetched : h.odbcFetcher.lastFetched = ⟨-1, -1, 0⟩

variable {h : OdbcHandleStmt ρ V} {result : QueryResult ρ}

/-- Fetches do not read the rest of the handle. -/
theorem AtResult.of_odbcFetcher {h' : OdbcHandleStmt ρ V} (ha : AtResult result h)
    (hfetcher : h'.odbcFetcher = h.odbcFetcher) (hopened : h'.opened = h.opened)
    (hres : h'.res = h.res) : AtResult result h' := by
  constructor
  · exact hopened ▸ ha.opened
  · exact hres ▸ ha.res
  all_goals rw [hfetcher]
  exacts [ha.chunks, ha.current, ha.idx, ha.chunkRow, ha.priorChunkRow, ha.rowCount, ha.seen,
    ha.lastFetched]

/-- If no error follows, a scan finds the rows of this result and no others. -/
theorem AtResult.inFront (ha : AtResult result h) (hf : result.failure = none) :
    InFront h result.columnCount result.pending := by
  obtain ⟨hopen, hres, hchunks, hcur, hidx, hrow, hprior, -, hseen, hlast⟩ := ha
  cases hp : result.pending with
  | nil =>
    have hfirst : result.firstChunk = none := by
      simp [QueryResult.firstChunk, QueryResult.fetch, hp, hf]
    rw [hfirst] at hchunks hcur
    exact ⟨hopen, hchunks, by simpa [hp] using hseen, hcur, hidx, hrow, hprior⟩
  | cons b bs =>
    have hfirst : result.firstChunk = some ⟨result.fetched, result.columnCount, b⟩ := by
      simp [QueryResult.firstChunk, QueryResult.fetch, hp]
    rw [hfirst] at hchunks hcur
    refine ⟨_, ⟨hopen, ?_, ?_, hcur, ?_, ?_, ?_⟩, hchunks, rfl, rfl, hrow, hprior, ?_⟩
    · exact ⟨_, hres, by simp [QueryResult.fetch, hp, hf]⟩
    · simp [hchunks]
    · simp [hchunks, hidx]
    · omega
    · simp [hseen, hp]
    · rw [hlast]

/-- `FetchFirst` on a fresh result that delivers. -/
theorem fetchFirst_delivers {f : OdbcFetch ρ} (hopen : h.opened = true) (hres : h.res = some result)
    (hfetcher : h.odbcFetcher = f.clearChunks) (hdeliver : result.Delivers) :
    ∃ ret h', h.fetchFirst = .ok (ret, h') ∧ ret ≠ .error ∧ AtResult result h' := by
  obtain ⟨hend, hchunks, hcur⟩ := atFront_cleared hfetcher
  cases hp : result.pending with
  | nil =>
    have hf : result.failure = none := by
      simpa [QueryResult.Delivers, hp] using hdeliver.2
    have hnext := fetchNext_of_done (h := h.atFront) hend hres hp hf
    refine ⟨_, _, fetchFirst_of_cleared hfetcher hnext, by simp, ?_⟩
    constructor <;>
      simp [QueryResult.firstChunk, QueryResult.fetch, hp, hf, atFront, beforeStart, hfetcher,
        OdbcFetch.clearChunks, OdbcFetch.resetLastFetchedVariableVal, hopen, hres]
  | cons b bs =>
    have hnext := fetchNext_onTaken (h := h.atFront) hend hres hp (by rw [hchunks]; simp)
    refine ⟨_, _, fetchFirst_of_cleared hfetcher hnext, by simp, ?_⟩
    constructor <;>
      simp [QueryResult.firstChunk, QueryResult.fetch, hp, onTaken, atFront, beforeStart, hfetcher,
        OdbcFetch.clearChunks, hopen]

/-- What one execution logs. -/
def runLog (h : OdbcHandleStmt ρ V) : List (ExecEvent V) :=
  (if h.rowsFetchedPtr ≠ 0 then [.rowsFetchedReset] else []) ++ [.run []]

/-- The handle that has the result, before its first chunk is fetched. -/
def onResult (h : OdbcHandleStmt ρ V) (result : QueryResult ρ) : OdbcHandleStmt ρ V :=
  { h.started with res := some result, opened := true }

section Once

variable {stmt : PreparedStatement}

/-- Without records there is nothing to read, and the statement is run. -/
theorem singleExecuteStmt_run (source : ParamSource V) (result : QueryResult ρ)
    (hrec : h.paramDesc.ipd.records = []) (hstmt : h.stmt = some stmt) :
    h.singleExecuteStmt source result =
      match result.error with
      | some msg => .ok ⟨.error, ({ h.started with res := some result }.setDiagnosticRecord .error
          "SingleExecuteStmt" msg .stHY000).2, h.runLog⟩
      | none => .ok ⟨.success, h.onResult result, h.runLog⟩ := by
  have hread : h.started.getParamValues source = .ok ([], ⟨.success, h.started, []⟩) := by
    unfold getParamValues
    rw [if_pos (by simp [started, hrec])]
    rfl
  unfold singleExecuteStmt
  change (h.started.getParamValues source >>= _) = _
  rw [hread]
  dsimp only [bind, Except.bind]
  -- the count of fetched rows is put back to zero if it is asked for
  by_cases hptr : h.rowsFetchedPtr ≠ 0
  · cases result.error <;>
      simp [hptr, started, onResult, runLog, hstmt, pure, Except.pure, setDiagnosticRecord]
  · cases result.error <;>
      simp [hptr, started, onResult, runLog, hstmt, pure, Except.pure, setDiagnosticRecord]

/-- The loop of the batch makes one turn. -/
theorem batchExecuteStmt_run {a : ExecAnswers ρ V} {x : Executed ρ V} {n : ℕ} (hn : 1 ≤ n)
    (hx : h.singleExecuteStmt a.source (a.results 0) = .ok x) (hret : x.ret ≠ .stillExecuting) :
    h.batchExecuteStmt n a = some (batchFinish x.ret x.h x.log) := by
  have hbody : batchBody a ⟨h, 0, []⟩ = .ok (x.ret, ⟨x.h, 1, x.log⟩) := by
    rw [batchBody, hx]
    rfl
  have hone : DoWhile.run (batchBody a) (· = .stillExecuting) 1 ⟨h, 0, []⟩ =
      some (.ok (x.ret, ⟨x.h, 1, x.log⟩)) := by
    simp [DoWhile.run, hbody, hret]
  rw [batchExecuteStmt, DoWhile.run_mono hone hn]
  rfl

/-- An execution whose result delivers succeeds. It leaves the handle in front of the result,
with the columns of the statement, or of the result if they were not known before. -/
theorem batchExecuteStmt_delivers {a : ExecAnswers ρ V} (hrec : h.paramDesc.ipd.records = [])
    (hstmt : h.stmt = some stmt) (hresult : a.results 0 = result) (hdeliver : result.Delivers) :
    ∃ h', (∀ n, 1 ≤ n → h.batchExecuteStmt n a = some (.ok ⟨.success, h', h.runLog⟩)) ∧
      AtResult result h' ∧
      (stmt.boundAllParameters = true → h'.stmt = some stmt ∧ h'.boundCols = h.boundCols) ∧
      (stmt.boundAllParameters = false →
        h'.stmt = some { stmt with columnCount := result.columnCount } ∧
        h'.boundCols.length = result.columnCount) := by
  subst hresult
  have hsingle := singleExecuteStmt_run a.source (a.results 0) hrec hstmt
  rw [hdeliver.1] at hsingle
  obtain ⟨ret, h₁, hfirst, hne, hat⟩ := fetchFirst_delivers (h := h.onResult (a.results 0)) rfl rfl
    (f := h.odbcFetcher) rfl hdeliver
  have hmoved := moved_fetchFirst hfirst
  have hstmt₁ : h₁.stmt = some stmt := hmoved.stmt.trans hstmt
  -- the columns are taken over unless they are known
  have hfinish : ∀ h', batchFinish .success (h.onResult (a.results 0)) h.runLog =
      .ok ⟨.success, h', h.runLog⟩ → ∀ n, 1 ≤ n →
        h.batchExecuteStmt n a = some (.ok ⟨.success, h', h.runLog⟩) := by
    intro h' hx n hn
    rw [batchExecuteStmt_run hn hsingle (by simp)]
    exact congrArg some hx
  unfold batchFinish at hfinish
  rw [if_neg (by simp [SqlReturn.succeeded]), hfirst] at hfinish
  dsimp only [bind, Except.bind] at hfinish
  rw [if_neg hne, hstmt₁] at hfinish
  dsimp only at hfinish
  rcases Bool.eq_false_or_eq_true stmt.boundAllParameters with hall | hall
  · rw [if_pos hall] at hfinish
    exact ⟨h₁, hfinish _ rfl, hat, fun _ => ⟨hstmt₁, hmoved.boundCols⟩,
      fun hnot => by simp [hall] at hnot⟩
  · have hcolumns : (a.results 0).fetch.2.columnCount = (a.results 0).columnCount := by
      unfold QueryResult.fetch
      repeat' split
      all_goals rfl
    rw [if_neg (by simp [hall]), hat.res] at hfinish
    refine ⟨_, hfinish _ rfl, hat.of_odbcFetcher rfl rfl hat.res.symm,
      fun hknown => by simp [hall] at hknown, fun _ => ⟨?_, ?_⟩⟩
    · rw [hcolumns]
    · rw [length_resize, hcolumns]

/-- An execution whose result does not deliver fails : it is an error, or its first chunk is. -/
theorem batchExecuteStmt_fails {a : ExecAnswers ρ V} (hrec : h.paramDesc.ipd.records = [])
    (hstmt : h.stmt = some stmt) (hdeliver : ¬(a.results 0).Delivers) :
    ∃ h', ∀ n, 1 ≤ n → h.batchExecuteStmt n a = some (.ok ⟨.error, h', h.runLog⟩) := by
  have hsingle := singleExecuteStmt_run a.source (a.results 0) hrec hstmt
  cases herr : (a.results 0).error with
  | some msg =>
    rw [herr] at hsingle
    exact ⟨_, fun n hn => batchExecuteStmt_run hn hsingle (by simp)⟩
  | none =>
    rw [herr] at hsingle
    have hfails : (a.results 0).pending.isEmpty ∧ (a.results 0).failure.isSome := by
      by_contra hnot
      exact hdeliver ⟨herr, hnot⟩
    obtain ⟨msg, hf⟩ := Option.isSome_iff_exists.1 hfails.2
    obtain ⟨h', hfirst, -⟩ := fetchFirst_error (h := h.onResult (a.results 0)) (f := h.odbcFetcher)
      rfl (List.isEmpty_iff.1 hfails.1) hf rfl
    refine ⟨h', fun n hn => ?_⟩
    rw [batchExecuteStmt_run hn hsingle (by simp)]
    unfold batchFinish
    rw [if_neg (by simp [SqlReturn.succeeded]), hfirst]
    rfl

end Once

/-- `FinalizeStmt` of a statement that was prepared. -/
theorem finalizeStmt_prepared (h : OdbcHandleStmt ρ V) {p : PreparedStatement}
    (hp : p.error = none) :
    (h.finalizeStmt p).1.succeeded ∧
      (h.finalizeStmt p).2.stmt = some { p with columnCount := p.knownColumns } ∧
      (h.finalizeStmt p).2.boundCols.length = p.knownColumns := by
  obtain ⟨error, paramCount, columnCount, all, isDml⟩ := p
  obtain rfl : error = none := hp
  cases all <;> exact ⟨rfl, rfl, length_resize ..⟩

end OdbcHandleStmt

namespace DirectStatement

variable (s : DirectStatement ρ V)

/-- The answer to the first execution of the statement. -/
def result : QueryResult ρ := s.exec.results 0

/-- The statement can be prepared and executed, and its first chunk is delivered. -/
def Succeeds : Prop :=
  s.prepared.error = none ∧ s.result.Delivers

instance : Decidable s.Succeeds :=
  inferInstanceAs (Decidable (_ ∧ _))

/-- The columns that it has once it was executed. -/
def columns : ℕ :=
  if s.prepared.boundAllParameters then s.prepared.columnCount else s.result.columnCount

/-- The records of these columns. -/
def records : List Desc.DescRecord :=
  (List.range s.columns).map (if s.prepared.boundAllParameters then s.column else s.resultColumn)

end DirectStatement

namespace Direct

/-- The handle and its row descriptor are those of the statement, in front of its result. -/
structure AtStatement (s : DirectStatement ρ V) (d : Direct ρ V) : Prop where
  stmt : d.h.stmt = some { s.prepared with columnCount := s.columns }
  result : d.h.AtResult s.result
  boundCols : d.h.boundCols.length = s.columns
  ird : d.ird.records = s.records

variable {s : DirectStatement ρ V}

/-- The rows of an earlier statement are gone : a scan reads the result of the last one. -/
theorem AtStatement.scanning {E : Engine ρ V} {d : Direct ρ V} (hat : d.AtStatement s)
    (hf : s.result.failure = none)
    (hr : OdbcHandleStmt.Readable E d.h s.result.columnCount s.result.pending) :
    OdbcHandleStmt.Scanning E d.h (OdbcHandleStmt.rowsets d.h.rowsetSize s.result.pending) :=
  (hat.result.inFront hf).scanning hr

/-- A statement is submitted to be prepared. -/
theorem finalizeStmt_submitted (d : Direct ρ V) (i : ℕ) (s : DirectStatement ρ V) :
    (d.finalizeStmt i s).2.submitted = d.submitted ++ [.prepare i] :=
  rfl

/-- A statement that cannot be prepared. -/
theorem finalizeStmt_error (d : Direct ρ V) (i : ℕ) (hp : s.prepared.error.isSome) :
    (d.finalizeStmt i s).1 = .error := by
  obtain ⟨msg, hmsg⟩ := Option.isSome_iff_exists.1 hp
  simp [finalizeStmt, OdbcHandleStmt.finalizeStmt, hmsg, OdbcHandleStmt.setDiagnosticRecord]

/-- One run is one execution without values. -/
theorem executions_runLog (i : ℕ) (h : OdbcHandleStmt ρ V) :
    executions i h.runLog = [.execute i []] := by
  unfold OdbcHandleStmt.runLog
  split <;> rfl

/-- A prepared statement without parameters is executed once, and succeeds if its result
delivers. -/
theorem batchExecuteStmt_once (d : Direct ρ V) (i : ℕ) (hp : s.prepared.error = none)
    (hparams : s.prepared.paramCount = 0) :
    ∃ ret d', (∀ n, 1 ≤ n → (d.finalizeStmt i s).2.batchExecuteStmt n i s = some (.ok (ret, d'))) ∧
      d'.submitted = d.submitted ++ [.prepare i, .execute i []] ∧
      (ret.succeeded ↔ s.result.Delivers) ∧ (ret.succeeded → d'.AtStatement s) := by
  obtain ⟨-, hstmt, hbound⟩ := d.h.finalizeStmt_prepared hp
  have hrec : (d.h.finalizeStmt s.prepared).2.paramDesc.ipd.records = [] := by
    rw [OdbcHandleStmt.finalizeStmt_paramDesc d.h hp, hparams]
    exact List.length_eq_zero_iff.1 (length_resize ..)
  have hird : (d.finalizeStmt i s).2.ird.records =
      (List.range s.prepared.knownColumns).map s.column := by
    simp [finalizeStmt, hp, fillIRD]
  change (d.finalizeStmt i s).2.h.stmt = _ at hstmt
  change (d.finalizeStmt i s).2.h.boundCols.length = _ at hbound
  change (d.finalizeStmt i s).2.h.paramDesc.ipd.records = [] at hrec
  have hsub := finalizeStmt_submitted d i s
  generalize (d.finalizeStmt i s).2 = d₁ at hstmt hbound hrec hird hsub
  -- the state after an execution that logged its run
  have hafter : ∀ ret h', (d₁.after i s ⟨ret, h', d₁.h.runLog⟩).submitted =
      d.submitted ++ [.prepare i, .execute i []] := by
    intro ret h'
    simp [after, hsub, executions_runLog]
  by_cases hdeliver : s.result.Delivers
  · have hresult : s.exec.results 0 = s.result := rfl
    obtain ⟨h', hexec, hat, hknown, hunknown⟩ :=
      OdbcHandleStmt.batchExecuteStmt_delivers hrec hstmt hresult hdeliver
    refine ⟨_, _, fun n hn => batchExecuteStmt_ok i (hexec n hn), hafter _ _,
      by simp [SqlReturn.succeeded, hdeliver], fun _ => ?_⟩
    dsimp only at hknown hunknown
    rcases Bool.eq_false_or_eq_true s.prepared.boundAllParameters with hall | hall
    · obtain ⟨hstmt', hbound'⟩ := hknown hall
      refine ⟨?_, hat, ?_, ?_⟩
      · simp [after, hstmt', DirectStatement.columns, PreparedStatement.knownColumns, hall]
      · simp [after, hbound', hbound, DirectStatement.columns, PreparedStatement.knownColumns, hall]
      · simp [after, hstmt', hird, DirectStatement.columns, DirectStatement.records,
          PreparedStatement.knownColumns, hall]
    · obtain ⟨hstmt', hbound'⟩ := hunknown hall
      refine ⟨?_, hat, ?_, ?_⟩
      · simp [after, hstmt', DirectStatement.columns, hall]
      · simp [after, hbound', DirectStatement.columns, hall]
      · simp [after, hstmt', DirectStatement.columns, DirectStatement.records, fillIRD, hall,
          SqlReturn.succeeded]
  · obtain ⟨h', hexec⟩ :=
      OdbcHandleStmt.batchExecuteStmt_fails (a := s.exec) hrec hstmt hdeliver
    exact ⟨_, _, fun n hn => batchExecuteStmt_ok i (hexec n hn), hafter _ _,
      by simp [SqlReturn.succeeded, hdeliver], fun h => absurd h Bool.false_ne_true⟩

end Direct

/-! ## The statements of a text -/

/-- What is submitted of the statements from the index on : the first one that fails is the last
one that is prepared. -/
def submissions : ℕ → List (DirectStatement ρ V) → List (Submission V)
  | _, [] => []
  | i, s :: rest =>
    .prepare i ::
      if s.prepared.error.isSome then []
      else .execute i [] :: if s.result.Delivers then submissions (i + 1) rest else []

section Submissions

variable {i : ℕ} {s : DirectStatement ρ V} {rest statements : List (DirectStatement ρ V)}

/-- Nothing is submitted behind a statement that cannot be prepared. -/
theorem submissions_of_error (hp : s.prepared.error.isSome) :
    submissions i (s :: rest) = [.prepare i] := by
  rw [submissions, if_pos hp]

/-- Nor behind one that fails. -/
theorem submissions_of_fails (hp : s.prepared.error = none) (hdeliver : ¬s.result.Delivers) :
    submissions i (s :: rest) = [.prepare i, .execute i []] := by
  rw [submissions, if_neg (by simp [hp]), if_neg hdeliver]

/-- Behind one that succeeds the text goes on. -/
theorem submissions_of_succeeds (hs : s.Succeeds) :
    submissions i (s :: rest) = .prepare i :: .execute i [] :: submissions (i + 1) rest := by
  rw [submissions, if_neg (by simp [hs.1]), if_pos hs.2]

/-- A statement is prepared, or prepared and executed, or succeeds. -/
theorem DirectStatement.cases_of (s : DirectStatement ρ V) :
    s.prepared.error.isSome ∨ (s.prepared.error = none ∧ ¬s.result.Delivers) ∨ s.Succeeds := by
  cases hp : s.prepared.error with
  | some msg => exact .inl rfl
  | none =>
    by_cases hdeliver : s.result.Delivers
    · exact .inr (.inr ⟨hp, hdeliver⟩)
    · exact .inr (.inl ⟨rfl, hdeliver⟩)

/-- What is submitted of the statement that has the place `k` behind the index. -/
def IsSubmitted (i : ℕ) (statements : List (DirectStatement ρ V)) (e : Submission V)
    (k : ℕ) : Prop :=
  ∃ s, statements[k]? = some s ∧ (∀ t ∈ statements.take k, t.Succeeds) ∧
    (e = .prepare (i + k) ∨ e = .execute (i + k) [] ∧ s.prepared.error = none)

/-- The first statement is prepared, and executed if it could be. -/
theorem isSubmitted_zero {e : Submission V} :
    IsSubmitted i (s :: rest) e 0 ↔
      e = .prepare i ∨ e = .execute i [] ∧ s.prepared.error = none := by
  simp [IsSubmitted]

/-- The others are if the first one succeeds. -/
theorem isSubmitted_succ {e : Submission V} {k : ℕ} :
    IsSubmitted i (s :: rest) e (k + 1) ↔ s.Succeeds ∧ IsSubmitted (i + 1) rest e k := by
  simp only [IsSubmitted, List.getElem?_cons_succ, List.take_succ_cons, List.forall_mem_cons,
    Nat.add_right_comm i 1 k, Nat.add_assoc]
  constructor
  · rintro ⟨t, ht, ⟨hs, hpre⟩, he⟩
    exact ⟨hs, t, ht, hpre, he⟩
  · rintro ⟨hs, t, ht, hpre, he⟩
    exact ⟨t, ht, ⟨hs, hpre⟩, he⟩

/-- A statement is prepared if the ones in front of it succeed, and executed if it could be
prepared, by induction on the statements. -/
theorem mem_submissions {e : Submission V} :
    e ∈ submissions i statements ↔ ∃ k, IsSubmitted i statements e k := by
  induction statements generalizing i with
  | nil => simp [submissions, IsSubmitted]
  | cons s rest ih =>
    have hsplit : (∃ k, IsSubmitted i (s :: rest) e k) ↔
        (e = .prepare i ∨ e = .execute i [] ∧ s.prepared.error = none) ∨
          s.Succeeds ∧ e ∈ submissions (i + 1) rest := by
      rw [ih, ← @isSubmitted_zero _ _ i s rest e, ← exists_and_left]
      simp only [← isSubmitted_succ]
      exact Nat.or_exists_add_one.symm
    rw [hsplit]
    rcases s.cases_of with hp | ⟨hp, hdeliver⟩ | hs
    · have hp' : s.prepared.error ≠ none := Option.isSome_iff_ne_none.1 hp
      have hs : ¬s.Succeeds := fun hs => hp' hs.1
      simp [submissions_of_error hp, hp', hs]
    · have hs : ¬s.Succeeds := fun hs => hdeliver hs.2
      simp [submissions_of_fails hp hdeliver, hp, hs]
    · simp [submissions_of_succeeds hs, hs, hs.1, or_assoc]

/-- They are submitted in the order of the text, and none of them twice. -/
theorem pairwise_submissions (i : ℕ) (statements : List (DirectStatement ρ V)) :
    (submissions i statements).Pairwise fun e e' => e.rank < e'.rank := by
  induction statements generalizing i with
  | nil => exact .nil
  | cons s rest ih =>
    rcases s.cases_of with hp | ⟨hp, hdeliver⟩ | hs
    · rw [submissions_of_error hp]
      exact List.pairwise_singleton _ _
    · rw [submissions_of_fails hp hdeliver]
      simp [Submission.rank]
    · -- the statements behind have higher indices
      have hrank : ∀ e ∈ submissions (i + 1) rest, 2 * (i + 1) ≤ e.rank := by
        intro e he
        obtain ⟨k, t, -, -, rfl | ⟨rfl, -⟩⟩ := mem_submissions.1 he
        · simp only [Submission.rank]
          omega
        · simp only [Submission.rank]
          omega
      rw [submissions_of_succeeds hs]
      refine .cons ?_ (.cons (fun e he => ?_) (ih (i + 1)))
      · intro e he
        rcases List.mem_cons.1 he with rfl | he
        · simp [Submission.rank]
        · have := hrank e he
          simp only [Submission.rank] at this ⊢
          omega
      · have := hrank e he
        simp only [Submission.rank] at this ⊢
        omega

end Submissions

namespace Direct

/-- The loop over the statements of a text, by induction on the ones that are left. One turn of
each batch is enough. -/
theorem execDirectLoop_submits :
    ∀ (statements : List (DirectStatement ρ V)) (i : ℕ) (ret : SqlReturn) (info : Bool)
      (d : Direct ρ V), (∀ s ∈ statements, s.prepared.paramCount = 0) → ret.succeeded →
      ∃ ret' d', (∀ n, 1 ≤ n → execDirectLoop n i statements ret info d = some (.ok (ret', d'))) ∧
        d'.submitted = d.submitted ++ submissions i statements ∧
        (ret'.succeeded ↔ ∀ s ∈ statements, s.Succeeds) ∧
        (statements = [] → d' = d) ∧
        (ret'.succeeded → ∀ s, statements.getLast? = some s → d'.AtStatement s)
  | [], i, ret, info, d, _, hret => by
    refine ⟨_, d, fun n _ => rfl, by simp [submissions], ?_, fun _ => rfl, by simp⟩
    cases info with
    | true => simp [SqlReturn.succeeded]
    | false => simp [hret]
  | s :: rest, i, ret, info, d, hparams, _ => by
    obtain ⟨hs, hrest⟩ := List.forall_mem_cons.1 hparams
    rcases hp : s.prepared.error with _ | msg
    · obtain ⟨ret₂, d₂, hexec, hsub, hiff, hat⟩ := batchExecuteStmt_once d i hp hs
      have hret₁ : (d.finalizeStmt i s).1.succeeded := (d.h.finalizeStmt_prepared hp).1
      rcases hfin : d.finalizeStmt i s with ⟨ret₁, d₁⟩
      rw [hfin] at hret₁ hexec
      have hturn := fun n => execDirectLoop_cons n i rest ret info hfin (by simp [hp, hret₁])
      by_cases hret₂ : ret₂.succeeded
      · have hsucc : s.Succeeds := ⟨hp, hiff.1 hret₂⟩
        obtain ⟨ret', d', hloop, hsub', hiff', hnil, hat'⟩ :=
          execDirectLoop_submits rest (i + 1) ret₂ (info || (ret₁ = .successWithInfo : Bool) ||
            (ret₂ = .successWithInfo : Bool)) d₂ hrest hret₂
        refine ⟨ret', d', fun n hn => ?_, ?_, ?_, fun h => absurd h (List.cons_ne_nil _ _),
          fun hret' t ht => ?_⟩
        · rw [hturn n, hexec n hn]
          dsimp only
          rw [if_neg (by simpa using hret₂)]
          exact hloop n hn
        · rw [hsub', hsub, submissions_of_succeeds hsucc]
          simp
        · rw [hiff', List.forall_mem_cons]
          exact ⟨fun h => ⟨hsucc, h⟩, And.right⟩
        · cases rest with
          | nil =>
            obtain rfl : s = t := Option.some.inj ht
            rw [hnil rfl]
            exact hat hret₂
          | cons u rest => exact hat' hret' t (by simpa using ht)
      · have hdeliver : ¬s.result.Delivers := fun h => hret₂ (hiff.2 h)
        refine ⟨ret₂, d₂, fun n hn => ?_, ?_, ?_, fun h => absurd h (List.cons_ne_nil _ _),
          fun h => absurd h hret₂⟩
        · rw [hturn n, hexec n hn]
          dsimp only
          rw [if_pos (by simpa using hret₂)]
        · rw [hsub, submissions_of_fails hp hdeliver]
        · exact ⟨fun h => absurd h hret₂,
            fun h => absurd (h s (List.mem_cons_self ..)).2 hdeliver⟩
    · have hstop : s.prepared.error.isSome := by simp [hp]
      have hret₁ := finalizeStmt_error d i hstop
      refine ⟨.error, (d.finalizeStmt i s).2, fun n _ => ?_, ?_, ?_,
        fun h => absurd h (List.cons_ne_nil _ _), fun h => absurd h Bool.false_ne_true⟩
      · rw [execDirectLoop]
        rcases hfin : d.finalizeStmt i s with ⟨ret₁, d₁⟩
        rw [hfin] at hret₁
        obtain rfl : ret₁ = .error := hret₁
        exact if_pos (.inl hstop)
      · rw [finalizeStmt_submitted, submissions_of_error hstop]
      · refine ⟨fun h => absurd h Bool.false_ne_true, fun h => ?_⟩
        have hsucc := (h s (List.mem_cons_self ..)).1
        simp [hp] at hsucc

/-- A text of statements without parameters. They are submitted in the order of the text, each
at most once, and none behind one that fails : a statement is prepared exactly if the ones in
front of it succeed, and executed exactly if it could be prepared as well. The call succeeds
exactly if all of them do, and then the handle is in front of the result of the last one, with
its columns. The code and the handle are those of `SQLExecDirect`. -/
theorem execDirectStmt_submits (statements : List (DirectStatement ρ V))
    (hparams : ∀ s ∈ statements, s.prepared.paramCount = 0) (h : OdbcHandleStmt ρ V)
    (ird : Desc.OdbcHandleDesc) :
    ∃ ret d, (∀ n, 1 ≤ n → execDirectStmt n statements h ird = some (.ok (ret, d))) ∧
      (d.submitted.Pairwise fun e e' => e.rank < e'.rank) ∧
      (∀ k, .prepare k ∈ d.submitted ↔
        k < statements.length ∧ ∀ t ∈ statements.take k, t.Succeeds) ∧
      (∀ k values, .execute k values ∈ d.submitted ↔
        values = [] ∧ (∃ s, statements[k]? = some s ∧ s.prepared.error = none) ∧
          ∀ t ∈ statements.take k, t.Succeeds) ∧
      (ret.succeeded ↔ ∀ s ∈ statements, s.Succeeds) ∧
      (ret.succeeded → ∀ s, statements.getLast? = some s → d.AtStatement s) ∧
      ∀ n, 1 ≤ n →
        h.execDirectStmt n (.ok (statements.map DirectStatement.toStatementAnswer)) =
          some (.ok ⟨ret, d.h, d.log⟩) := by
  obtain ⟨ret, d, hloop, hsub, hiff, -, hat⟩ :=
    execDirectLoop_submits statements 0 .success false ⟨h.prepareQuery, ird, [], []⟩ hparams rfl
  rw [List.nil_append] at hsub
  have hcall : ∀ n, 1 ≤ n →
      h.execDirectStmt n (.ok (statements.map DirectStatement.toStatementAnswer)) =
        some (.ok ⟨ret, d.h, d.log⟩) := fun n hn => by
    rw [← execDirectStmt_executed n statements h ird, execDirectStmt, hloop n hn]
    rfl
  refine ⟨ret, d, hloop, ?_, fun k => ?_, fun k values => ?_, hiff, hat, hcall⟩
  · rw [hsub]
    exact pairwise_submissions 0 statements
  · rw [hsub, mem_submissions]
    constructor
    · rintro ⟨j, s, hs, hpre, he | ⟨he, -⟩⟩
      · obtain rfl : k = 0 + j := Submission.prepare.inj he
        rw [Nat.zero_add]
        exact ⟨(List.getElem?_eq_some_iff.1 hs).1, hpre⟩
      · cases he
    · rintro ⟨hk, hpre⟩
      exact ⟨k, _, List.getElem?_eq_getElem hk, hpre, .inl (by rw [Nat.zero_add])⟩
  · rw [hsub, mem_submissions]
    constructor
    · rintro ⟨j, s, hs, hpre, he | ⟨he, hp⟩⟩
      · cases he
      · obtain ⟨rfl, rfl⟩ := Submission.execute.inj he
        rw [Nat.zero_add]
        exact ⟨rfl, ⟨s, hs, hp⟩, hpre⟩
    · rintro ⟨rfl, ⟨s, hs, hp⟩, hpre⟩
      exact ⟨k, s, hs, hpre, .inr ⟨by rw [Nat.zero_add], hp⟩⟩

/-- A chunk with a first row. -/
def rowsOf (r : ρ) (rs : List ρ) : Block ρ := ⟨r :: rs, List.cons_ne_nil r rs⟩

/-- A query of one column and one of two. -/
def twoQueries : List (DirectStatement ℕ ℕ) :=
  [⟨select 1 [rowsOf 1 [2, 3]], fun _ => {}, fun _ => {}⟩,
    ⟨select 2 [rowsOf 4 []], fun _ => {}, fun _ => {}⟩]

/-- Both queries are executed, and the second one is open. -/
theorem twoQueries_submitted :
    ∃ ret d, execDirectStmt 1 twoQueries .blank ⟨{}, [], 0, some 1, []⟩ = some (.ok (ret, d)) ∧
      ret.succeeded ∧ .prepare 1 ∈ d.submitted ∧ .execute 1 [] ∈ d.submitted ∧
      d.h.boundCols.length = 2 ∧ d.ird.records.length = 2 ∧
      d.h.odbcFetcher.chunks.map DataChunk.rows = [[4]] := by
  have hsucc : ∀ s ∈ twoQueries, s.Succeeds := by
    simp [twoQueries, DirectStatement.Succeeds, QueryResult.Delivers, DirectStatement.result,
      select, queryResult]
  obtain ⟨ret, d, hrun, -, hprepare, hexecute, hiff, hat, -⟩ :=
    execDirectStmt_submits twoQueries (by simp [twoQueries, select]) .blank ⟨{}, [], 0, some 1, []⟩
  have hret := hiff.2 hsucc
  have hlast := hat hret _ rfl
  refine ⟨ret, d, hrun 1 (Nat.le_refl 1), hret, ?_, ?_, hlast.boundCols, ?_, ?_⟩
  · exact (hprepare 1).2 ⟨by decide, fun t ht => hsucc t (List.mem_of_mem_take ht)⟩
  · exact (hexecute 1 []).2 ⟨rfl, ⟨_, rfl, rfl⟩, fun t ht => hsucc t (List.mem_of_mem_take ht)⟩
  · rw [hlast.ird]
    rfl
  · rw [hlast.result.chunks]
    rfl

end Direct

end HaybarnOdbc
