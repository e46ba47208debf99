import HaybarnOdbc.FirstRead
import HaybarnOdbc.KeptBindings

/-!
# The cells that are accessed

`GetValue` reads a cell of the current chunk at the row of the cursor, and the loops of
`ColumnWise` and `RowWise` look up each column of the statement in `bound_cols`. None of them
compares its index with a size. The calls keep the cursor in front of or on a row of a stored
chunk that has the columns of the result (`InOrder`), and from there on it is up to the
application : `cells_in_range` is for the runs in which `SQLGetData` asks for a column of the
result with the cursor on a row, and the columns of the statement have their bindings when a
row is delivered (`CellsThere`).
-/

namespace HaybarnOdbc

variable {ρ V : Type}

namespace OdbcHandleStmt

/-! ## Accesses -/

/-- `GetDataStmtResult` comes to `GetValue`. -/
def ReadsValue (t : CType) (target : Addr) : Prop := ¬(target = 0 ∧ ¬t.isCharType)

/-- `GetValue` of a column stays within the current chunk, if there is one : the chunk is still
stored, and it has the row of the cursor and the column. -/
def InChunk (h : OdbcHandleStmt ρ V) (col : ℕ) : Prop :=
  ∀ c, h.odbcFetcher.currentChunk = some c → h.odbcFetcher.owns c = true ∧
    0 ≤ h.odbcFetcher.chunkRow ∧ h.odbcFetcher.chunkRow < c.size ∧ col < c.columnCount

/-- The loops of a delivery come to a column of a row. -/
def ComesToCell (E : Engine ρ V) (h : OdbcHandleStmt ρ V) (rowIdx col : ℕ) (d' : Delivery ρ V) :
    Prop :=
  ∃ c d n, h.odbcFetcher.deref = .ok c ∧ h.columnCount = .ok n ∧
    Outcome.ComesTo (deliverRow E h.place) ⟨.success, h, [], []⟩
      (List.range' h.firstRow (h.lastRow c - h.firstRow)) rowIdx d ∧
    Outcome.ComesTo (deliverCell E h.place rowIdx) (d.onRow c rowIdx) (List.range n) col d'

/-- Whatever cell a delivery comes to, `bound_cols` has its column, and if the column is taken
then its value is read within the chunk. -/
def CellsInRange (E : Engine ρ V) (h : OdbcHandleStmt ρ V) : Prop :=
  ∀ rowIdx col d', ComesToCell E h rowIdx col d' → ∃ b, d'.h.boundCols[col]? = some b ∧
    (h.place.takes b = true → ReadsValue b.type (h.place.valAddr b rowIdx) → d'.h.InChunk col)

/-- Every cell access of a call is in range : the ones of a bound fetch once it is positioned,
and the one of `SQLGetData`. -/
structure AccessesInRange (E : Engine ρ V) (h : OdbcHandleStmt ρ V) (call : Call ρ V) : Prop where
  fetch : ∀ h₁, h.landing call = some h₁ → h₁.boundCols ≠ [] → CellsInRange E h₁
  getData : ∀ num t target len ind h₁, call = .getData num t target len ind →
    h.convertHSTMTResult = .ok (.success, h₁) → ReadsValue t target → h₁.InChunk (num - 1)

/-- Every column of the statement has an element of `bound_cols`, and the result has the ones that
are taken. -/
def ColumnsThere (h : OdbcHandleStmt ρ V) : Prop :=
  ∀ n, h.columnCount = .ok n → ∀ col < n, col < h.boundCols.length ∧
    (h.takesCol col = true → ∀ res, h.res = some res → col < res.columnCount)

/-- The condition on a call. A bound fetch that comes to a row finds the columns there;
`SQLGetData` finds the cursor on a row of the current chunk, and asks for a column of the result. -/
structure CellsThere (h : OdbcHandleStmt ρ V) (call : Call ρ V) : Prop where
  fetch : ∀ h₁ c, h.landing call = some h₁ → h₁.boundCols ≠ [] → h₁.odbcFetcher.deref = .ok c →
    h₁.rowset c ≠ [] → h₁.ColumnsThere
  getData : ∀ num t target len ind res c, call = .getData num t target len ind →
    h.res = some res → ReadsValue t target → h.odbcFetcher.currentChunk = some c →
    h.odbcFetcher.chunkRow ≠ -1 ∧ h.odbcFetcher.chunkRow < c.size ∧ num - 1 < res.columnCount

/-! ## The fetcher -/

/-- The cursor is in front of or on a row, the current chunk is a stored one, and the stored ones
have the columns of the result. -/
structure InOrder (h : OdbcHandleStmt ρ V) : Prop where
  low : -1 ≤ h.odbcFetcher.chunkRow
  stored : ∀ c, h.odbcFetcher.currentChunk = some c → c ∈ h.odbcFetcher.chunks
  columns : ∀ c ∈ h.odbcFetcher.chunks, h.res.map QueryResult.columnCount = some c.columnCount

namespace InOrder

variable {h h' : OdbcHandleStmt ρ V} {ret : SqlReturn}

/-- After `ClearChunks`. -/
theorem of_cleared (hf : h.odbcFetcher.chunks = []) (hcur : h.odbcFetcher.currentChunk = none)
    (hrow : h.odbcFetcher.chunkRow = -1) : h.InOrder where
  low := Int.le_of_eq hrow.symm
  stored c hc := by simp [hcur] at hc
  columns c hc := by simp [hf] at hc

/-- A call that leaves the cursor, the chunks and the result as they are. -/
theorem of_same (hi : h.InOrder) (hrow : h'.odbcFetcher.chunkRow = h.odbcFetcher.chunkRow)
    (hcur : h'.odbcFetcher.currentChunk = h.odbcFetcher.currentChunk)
    (hchunks : h'.odbcFetcher.chunks = h.odbcFetcher.chunks) (hres : h'.res = h.res) :
    h'.InOrder where
  low := hrow ▸ hi.low
  stored := by rw [hcur, hchunks]; exact hi.stored
  columns := by rw [hchunks, hres]; exact hi.columns

/-- A chunk from the engine has the columns of the result. It becomes the current one, also where
it replaces the chunk that was. -/
theorem step (hi : h.InOrder) (hs : CursorStep h h') : h'.InOrder := by
  have hlow := CursorSteps.low (.single hs) hi.low
  cases hs with
  | place | reset | ended | refused => exact ⟨hlow, hi.stored, hi.columns⟩
  | @seat idx c row hc =>
    refine ⟨hlow, fun c' hc' => ?_, hi.columns⟩
    obtain rfl : c = c' := Option.some.inj hc'
    exact List.mem_of_getElem? hc
  | @taken res b bs idx c hend hres hp hc =>
    refine ⟨hlow, fun c' hc' => ?_, fun c' hc' => ?_⟩
    · obtain rfl : c = c' := Option.some.inj hc'
      exact List.mem_of_getElem? hc
    · have htaken : c' ∈ (h.taking res b bs).odbcFetcher.chunks := hc'
      rcases mem_taking htaken with hmem | rfl
      · have hcol := hi.columns c' hmem
        rw [hres] at hcol
        exact hcol
      · rfl
  | @failed res msg diag hend hres =>
    refine ⟨hlow, hi.stored, fun c hc => ?_⟩
    have hcol := hi.columns c hc
    rw [hres] at hcol
    exact hcol

/-- The cursor moves in order. -/
theorem fetchNextChunk {o : FetchOrientation} {off : ℤ} (hi : h.InOrder)
    (hx : h.fetchNextChunk o off = .ok (ret, h')) : h'.InOrder :=
  (steps_fetchNextChunk hx).invariant step hi

/-- The first fetch is in order. -/
theorem fetchFirst (hi : h.InOrder) (hx : h.fetchFirst = .ok (ret, h')) : h'.InOrder := by
  obtain ⟨⟨ret₁, h₁⟩, h₁x, hx⟩ := Outcome.bind_eq_ok.1 hx
  cases hx
  have hdynamic : InOrder { h with odbcFetcher.cursorType := .dynamic } :=
    ⟨hi.low, hi.stored, hi.columns⟩
  have hi₁ := hdynamic.fetchNextChunk h₁x
  exact ⟨hi₁.low, hi₁.stored, hi₁.columns⟩

/-- The same cursor is in order. -/
theorem of_sameCursor (hi : h.InOrder) (hs : SameCursor h h') : h'.InOrder := by
  obtain ⟨last, diag, rfl⟩ := hs
  exact ⟨hi.low, hi.stored, hi.columns⟩

/-- A delivery keeps the order. -/
theorem deliver {E : Engine ρ V} {d : Delivery ρ V} (hi : h.InOrder) (hx : h.deliver E = .ok d) :
    d.h.InOrder := by
  have hlow := low_deliver hi.low hx
  obtain ⟨row, count, last, diag, heq⟩ := sameChunk_deliver hx
  rw [heq] at hlow ⊢
  exact ⟨hlow, hi.stored, hi.columns⟩

/-- A fetch keeps the order. -/
theorem fetchStmtResult {E : Engine ρ V} {o : FetchOrientation} {off : ℤ} {d : Delivery ρ V}
    (hi : h.InOrder) (hx : h.fetchStmtResult E o off = .ok d) : d.h.InOrder :=
  fetchStmtResult_invariant step deliver hi hx

/-- An execution begins with `ClearChunks`. -/
theorem singleExecuteStmt {source : ParamSource V} {result : QueryResult ρ} {x : Executed ρ V}
    (hx : h.singleExecuteStmt source result = .ok x) : x.h.InOrder := by
  cases singleExecuteStmt_cases hx <;> exact of_cleared rfl rfl rfl

/-- A batch that ends is in order. -/
theorem batchFinish {log : List (ExecEvent V)} {x : Executed ρ V} (hi : h.InOrder)
    (hx : batchFinish ret h log = .ok x) : x.h.InOrder := by
  unfold OdbcHandleStmt.batchFinish at hx
  split at hx
  · cases hx
    exact hi
  · obtain ⟨⟨fetchRet, h₁⟩, hfirst, hx⟩ := Outcome.bind_eq_ok.1 hx
    have hi₁ := hi.fetchFirst hfirst
    dsimp only at hx
    repeat' split at hx
    all_goals cases hx
    · exact hi₁
    · exact hi₁
    · exact ⟨hi₁.low, hi₁.stored, hi₁.columns⟩

/-- An execution leaves the handle in order. -/
theorem batchExecuteStmt {n : ℕ} {a : ExecAnswers ρ V} {x : Executed ρ V}
    (hx : h.batchExecuteStmt n a = some (.ok x)) : x.h.InOrder := by
  obtain ⟨y, hrun, hy⟩ := Option.map_eq_some_iff.1 hx
  obtain ⟨⟨ret, b⟩, rfl, hfinish⟩ := Outcome.bind_eq_ok.1 hy
  have hb : ∀ p : SqlReturn × Batch ρ V, Except.ok (ε := Fault) (ret, b) = .ok p →
    p.2.h.InOrder := by
    refine DoWhile.run_invariant (batchBody a) (· = .stillExecuting) (fun _ => True)
      (fun x => ∀ p, x = .ok p → p.2.h.InOrder) (fun _ _ _ _ _ hp => nomatch hp)
      (fun _ _ _ _ _ _ => trivial) ?_ trivial hrun
    rintro b r b' - hbody - p hp
    obtain rfl := Except.ok.inj hp
    obtain ⟨x, hsingle, hret⟩ := Outcome.bind_eq_ok.1 hbody
    cases hret
    exact singleExecuteStmt hsingle
  exact (hb _ rfl).batchFinish hfinish

/-- A handle that is cleared is in order. -/
theorem prepareQuery (h : OdbcHandleStmt ρ V) : h.prepareQuery.InOrder := of_cleared rfl rfl rfl

/-- Preparing a statement keeps the order. -/
theorem finalizeStmt (hi : h.InOrder) (p : PreparedStatement) : (h.finalizeStmt p).2.InOrder := by
  obtain ⟨error, paramCount, columnCount, all, isDml⟩ := p
  cases error with
  | some msg => exact ⟨hi.low, hi.stored, hi.columns⟩
  | none => cases all <;> exact ⟨hi.low, hi.stored, hi.columns⟩

/-- A text of statements leaves the handle in order. -/
theorem execDirectStmt {n : ℕ} {statements : Except String (List (StatementAnswer ρ V))}
    {x : Executed ρ V} (hx : h.execDirectStmt n statements = some (.ok x)) : x.h.InOrder := by
  cases statements with
  | error msg =>
    cases hx
    exact of_cleared rfl rfl rfl
  | ok statements =>
    refine execDirectLoop_invariant InOrder (fun s _ h hi => ⟨hi.finalizeStmt s.prepared, ?_⟩)
      (prepareQuery h) hx
    exact fun _ x hx => batchExecuteStmt hx

/-- The execution before a fetch keeps the order. -/
theorem executeBeforeFetch {source : ParamSource V} {result : QueryResult ρ} {x : Executed ρ V}
    (hi : h.InOrder) (hx : h.executeBeforeFetch source result = .ok x) : x.h.InOrder := by
  unfold OdbcHandleStmt.executeBeforeFetch at hx
  rcases h.convertHSTMTPrepared_cases with ⟨stmt, -, -, hconv⟩ | ⟨diag, hconv⟩
  · rw [hconv] at hx
    dsimp only at hx
    split at hx
    · cases hx
      exact ⟨hi.low, hi.stored, hi.columns⟩
    · split at hx
      · obtain ⟨y, hy, hx⟩ := Outcome.bind_eq_ok.1 hx
        cases hx
        have hi₁ := singleExecuteStmt hy
        exact hi₁
      · cases hx
        exact ⟨hi.low, hi.stored, hi.columns⟩
  · rw [hconv] at hx
    cases hx
    exact ⟨hi.low, hi.stored, hi.columns⟩

end InOrder

/-! ## The calls -/

/-- The fetcher is in order, or there is neither a statement nor a result yet. -/
def Ordered (h : OdbcHandleStmt ρ V) : Prop := (h.stmt = none ∧ h.res = none) ∨ h.InOrder

section Calls

variable {E : Engine ρ V} {h h₁ : OdbcHandleStmt ρ V} {n : ℕ} {call : Call ρ V} {r : Reply ρ V}

/-- A handle with a statement is in order. -/
theorem Ordered.of_stmt (ho : h.Ordered) {stmt : PreparedStatement} (hs : h.stmt = some stmt) :
    h.InOrder :=
  ho.resolve_left fun hnone => by simp [hs] at hnone

/-- A handle with a result is in order. -/
theorem Ordered.of_res (ho : h.Ordered) {res : QueryResult ρ} (hr : h.res = some res) : h.InOrder :=
  ho.resolve_left fun hnone => by simp [hr] at hnone

/-- A call that leaves the cursor, the chunks, the statement and the result as they are. -/
theorem Ordered.of_same (ho : h.Ordered) (hstmt : h₁.stmt = h.stmt) (hres : h₁.res = h.res)
    (hrow : h₁.odbcFetcher.chunkRow = h.odbcFetcher.chunkRow)
    (hcur : h₁.odbcFetcher.currentChunk = h.odbcFetcher.currentChunk)
    (hchunks : h₁.odbcFetcher.chunks = h.odbcFetcher.chunks) : h₁.Ordered := by
  rcases ho with ⟨hs, hr⟩ | hi
  · exact .inl ⟨hstmt.trans hs, hres.trans hr⟩
  · exact .inr (hi.of_same hrow hcur hchunks hres)

theorem Ordered.diag (ho : h.Ordered) (diag : List DiagRecord) : Ordered { h with diag := diag } :=
  ho.of_same rfl rfl rfl rfl rfl

/-- The check of a fetch leaves it ordered. -/
theorem Ordered.convertHSTMTResult (ho : h.Ordered) {ret : SqlReturn}
    (hx : h.convertHSTMTResult = .ok (ret, h₁)) :
    h₁.Ordered ∧ (ret = .success → h₁.InOrder) := by
  rcases h.convertHSTMTResult_cases with ⟨res, hres, -, hconv⟩ | ⟨diag, hconv⟩ | ⟨-, -, hconv⟩
  · rw [hconv] at hx
    cases hx
    have hi : h.convertHSTMT.InOrder := (ho.of_res hres).of_same rfl rfl rfl rfl
    exact ⟨.inr hi, fun _ => hi⟩
  · rw [hconv] at hx
    cases hx
    exact ⟨ho.diag diag, nofun⟩
  · rw [hconv] at hx
    cases hx

/-- So does `SQLFetch`. -/
theorem Ordered.sqlFetch {source : ParamSource V} {result : QueryResult ρ} (ho : h.Ordered)
    (hx : h.sqlFetch E source result = .ok r) : r.h.Ordered := by
  unfold OdbcHandleStmt.sqlFetch at hx
  rcases h.convertHSTMTPrepared_cases with ⟨stmt, hstmt, -, hconv⟩ | ⟨diag, hconv⟩
  · have hi : h.convertHSTMT.InOrder := (ho.of_stmt hstmt).of_same rfl rfl rfl rfl
    rw [hconv] at hx
    dsimp only at hx
    split at hx
    · obtain ⟨x, hexec, hx⟩ := Outcome.bind_eq_ok.1 hx
      have hix := hi.executeBeforeFetch hexec
      split at hx
      · cases hx
        exact .inr hix
      · obtain ⟨d, hd, hx⟩ := Outcome.bind_eq_ok.1 hx
        cases hx
        exact .inr (hix.fetchStmtResult hd)
    · cases hx
      exact .inr hi
  · rw [hconv] at hx
    cases hx
    exact ho.diag diag

/-- So does `SQLFetchScroll`. -/
theorem Ordered.sqlFetchScroll {o : FetchOrientation} {off : ℤ} (ho : h.Ordered)
    (hx : h.sqlFetchScroll E o off = .ok r) : r.h.Ordered := by
  unfold OdbcHandleStmt.sqlFetchScroll at hx
  split at hx
  · cases hx
    exact ho
  · obtain ⟨⟨ret, h₁⟩, hconv, hx⟩ := Outcome.bind_eq_ok.1 hx
    obtain ⟨ho₁, hi₁⟩ := ho.convertHSTMTResult hconv
    split at hx
    · next heq =>
      obtain ⟨rfl, rfl⟩ := Prod.mk.inj heq
      obtain ⟨d, hd, hx⟩ := Outcome.bind_eq_ok.1 hx
      cases hx
      exact .inr ((hi₁ rfl).fetchStmtResult hd)
    · next heq =>
      obtain ⟨rfl, rfl⟩ := Prod.mk.inj heq
      cases hx
      exact ho₁

/-- So does `SQLGetData`. -/
theorem Ordered.sqlGetData {num : ℕ} {t : CType} {target : Addr} {len : ℤ} {ind : Addr}
    (ho : h.Ordered) (hx : h.sqlGetData E num t target len ind = .ok r) : r.h.Ordered := by
  obtain ⟨⟨ret, h₁⟩, hconv, hx⟩ := Outcome.bind_eq_ok.1 hx
  obtain ⟨ho₁, hi₁⟩ := ho.convertHSTMTResult hconv
  split at hx
  · next heq =>
    obtain ⟨rfl, rfl⟩ := Prod.mk.inj heq
    obtain ⟨got, hgot, hx⟩ := Outcome.bind_eq_ok.1 hx
    cases hx
    exact .inr ((hi₁ rfl).of_sameCursor (sameCursor_getDataStmtResult hgot))
  · next heq =>
    obtain ⟨rfl, rfl⟩ := Prod.mk.inj heq
    cases hx
    exact ho₁

/-- So does `SQLMoreResults`. -/
theorem Ordered.sqlMoreResults {source : ParamSource V} {result : QueryResult ρ} (ho : h.Ordered)
    (hx : h.sqlMoreResults source result = .ok r) : r.h.Ordered := by
  unfold OdbcHandleStmt.sqlMoreResults at hx
  dsimp only at hx
  split at hx
  · cases hx
    exact ho.diag []
  · obtain ⟨x, hexec, hx⟩ := Outcome.bind_eq_ok.1 hx
    cases hx
    exact .inr (InOrder.singleExecuteStmt hexec)

/-- So does `SQLRowCount`. -/
theorem Ordered.sqlRowCount {ptr : Addr} (ho : h.Ordered) (hx : h.sqlRowCount ptr = .ok r) :
    r.h.Ordered := by
  obtain ⟨⟨ret, h₁⟩, hconv, hx⟩ := Outcome.bind_eq_ok.1 hx
  have ho₁ := (ho.convertHSTMTResult hconv).1
  split at hx
  · next heq =>
    obtain ⟨rfl, rfl⟩ := Prod.mk.inj heq
    split at hx
    · cases hx
      exact ho₁
    · obtain ⟨count, -, hx⟩ := Outcome.bind_eq_ok.1 hx
      split at hx
      · cases hx
      · split at hx
        · cases hx
        · cases hx
          exact ho₁
  · next heq =>
    obtain ⟨rfl, rfl⟩ := Prod.mk.inj heq
    cases hx
    exact ho₁

/-- Every call keeps the order. -/
theorem Ordered.perform (ho : h.Ordered) (hx : h.perform E n call = some (.ok r)) :
    r.h.Ordered := by
  cases call with
  | prepare p =>
    cases hx
    exact .inr ((InOrder.prepareQuery h.convertHSTMT).finalizeStmt p)
  | execute a =>
    obtain ⟨y, hy, hmap⟩ := Option.map_eq_some_iff.1 hx
    obtain ⟨x, rfl, rfl⟩ := Outcome.map_eq_ok.1 hmap
    exact .inr (InOrder.batchExecuteStmt hy)
  | execDirect statements =>
    obtain ⟨y, hy, hmap⟩ := Option.map_eq_some_iff.1 hx
    obtain ⟨x, rfl, rfl⟩ := Outcome.map_eq_ok.1 hmap
    exact .inr (InOrder.execDirectStmt hy)
  | fetch source result => exact ho.sqlFetch (Option.some.inj hx)
  | fetchScroll o off => exact ho.sqlFetchScroll (Option.some.inj hx)
  | moreResults source result => exact ho.sqlMoreResults (Option.some.inj hx)
  | rowCount ptr => exact ho.sqlRowCount (Option.some.inj hx)
  | getData num t target len ind => exact ho.sqlGetData (Option.some.inj hx)
  | close =>
    cases hx
    exact .inr (.of_cleared rfl rfl rfl)
  | bindParameter args =>
    cases hx
    unfold bindParameterStmt
    dsimp only
    split_ifs <;> exact ho.of_same rfl rfl rfl rfl rfl
  | setRowBindType size =>
    simp only [OdbcHandleStmt.perform, attr] at hx
    split_ifs at hx <;> · cases hx; exact ho.of_same rfl rfl rfl rfl rfl
  | _ =>
    cases hx
    exact ho.of_same rfl rfl rfl rfl rfl

/-- What comes to a fetch is in order. -/
theorem Ordered.comesToFetch {o : FetchOrientation} {off : ℤ} (ho : h.Ordered)
    (hc : h.comesToFetch call = some (h₁, o, off)) : h₁.InOrder := by
  cases call with
  | fetch source result =>
    simp only [OdbcHandleStmt.comesToFetch] at hc
    rcases h.convertHSTMTPrepared_cases with ⟨stmt, hstmt, -, hconv⟩ | ⟨diag, hconv⟩
    · have hi : h.convertHSTMT.InOrder := (ho.of_stmt hstmt).of_same rfl rfl rfl rfl
      rw [hconv] at hc
      dsimp only at hc
      split_ifs at hc with hretrieve
      split at hc
      · next x hexec =>
        split_ifs at hc with hready
        obtain ⟨rfl, rfl, rfl⟩ := Option.some.inj hc
        exact hi.executeBeforeFetch hexec
      · cases hc
    · rw [hconv] at hc
      cases hc
  | fetchScroll orientation fetchOffset =>
    simp only [OdbcHandleStmt.comesToFetch] at hc
    split_ifs at hc with hother
    split at hc
    · next h' hconv =>
      split_ifs at hc with hopen
      obtain ⟨rfl, rfl, rfl⟩ := Option.some.inj hc
      exact (ho.convertHSTMTResult hconv).2 rfl
    · cases hc
  | _ => cases hc

/-- What it lands on is in order. -/
theorem Ordered.landing (ho : h.Ordered) (hl : h.landing call = some h₁) : h₁.InOrder := by
  unfold OdbcHandleStmt.landing at hl
  split at hl
  · next h₀ o off hc =>
    split at hl
    · next h' hmove =>
      obtain rfl := Option.some.inj hl
      exact (ho.comesToFetch hc).fetchNextChunk hmove
    · cases hl
  · cases hl

/-! ## The cells of a delivery and of `SQLGetData` -/

/-- A stored chunk can be read. -/
theorem owns_of_mem {f : OdbcFetch ρ} {c : DataChunk ρ} (hc : c ∈ f.chunks) : f.owns c = true :=
  List.any_eq_true.2 ⟨c, hc, by simp⟩

/-- The current chunk has the columns of the result. -/
theorem InOrder.columnCount_eq (hi : h.InOrder) {res : QueryResult ρ} {c : DataChunk ρ}
    (hres : h.res = some res) (hc : h.odbcFetcher.currentChunk = some c) :
    res.columnCount = c.columnCount := by
  simpa [hres] using hi.columns c (hi.stored c hc)

theorem currentChunk_of_deref {f : OdbcFetch ρ} {c : DataChunk ρ} (hc : f.deref = .ok c) :
    f.currentChunk = some c := by
  unfold OdbcFetch.deref at hc
  split at hc
  · cases hc
  · next c' heq =>
    split at hc
    · rw [heq, Except.ok.inj hc]
    · cases hc

/-- The rows that a delivery comes to are rows of the chunk behind the cursor, and the columns are
the ones of the statement. -/
theorem InOrder.cellsInRange (hi : h.InOrder)
    (hc : ∀ c, h.odbcFetcher.deref = .ok c → h.rowset c ≠ [] → h.ColumnsThere) :
    CellsInRange E h := by
  rintro rowIdx col d' ⟨c, d, n, hderef, hcount, ⟨rows, rows', hrows, hd⟩, cols, cols', hcols, hd'⟩
  have hlen := congrArg List.length hrows
  simp only [List.length_range', List.length_append, List.length_cons] at hlen
  have hrow : rows.length < (h.rowset c).length := by
    rw [length_rowset]
    omega
  obtain ⟨rfl, hlt⟩ := pre_of_range hcols
  obtain ⟨hbound, hresult⟩ := hc c hderef (List.ne_nil_of_length_pos (by omega)) n hcount _ hlt
  -- the cursor is `rows.length + 1` rows further, and nothing else has moved
  have hsame : SameCursor (h.ahead (rows.length + 1)) d'.h := by
    have hbefore := afterRows_prefix hrows hd
    have hcell := afterCols_prefix hcols hd'
    rw [← ahead_ahead]
    exact (hbefore.same.ahead 1).trans hcell.same
  obtain ⟨last, diag, heq⟩ := hsame
  have hget : h.boundCols[cols.length]? = some h.boundCols[cols.length] :=
    List.getElem?_eq_getElem hbound
  rw [heq]
  refine ⟨_, hget, fun htakes _ c' hc' => ?_⟩
  obtain rfl : c = c' := Option.some.inj ((currentChunk_of_deref hderef).symm.trans hc')
  have hmem := hi.stored c (currentChunk_of_deref hderef)
  have hlow := hi.low
  have hsize : h.firstRow + rows.length < c.size := by
    have hlast : h.lastRow c ≤ c.size := Nat.min_le_right ..
    omega
  have hfirst : (h.firstRow : ℤ) = h.odbcFetcher.chunkRow + 1 := by
    simp only [firstRow]
    omega
  refine ⟨owns_of_mem hmem, ?_, ?_, ?_⟩
  · show (0 : ℤ) ≤ h.odbcFetcher.chunkRow + (rows.length + 1 : ℕ)
    omega
  · show h.odbcFetcher.chunkRow + (rows.length + 1 : ℕ) < c.size
    omega
  · obtain ⟨res, hres, hcolumns⟩ := Option.map_eq_some_iff.1 (hi.columns c hmem)
    rw [← hcolumns]
    exact hresult (by rw [takesCol, hget]; exact htakes) res hres

/-- `SQLGetData` reads within the chunk exactly if the cursor is on one of its rows and the result
has the column. -/
theorem InOrder.inChunk_iff (hi : h.InOrder) {res : QueryResult ρ} (hres : h.res = some res)
    {col : ℕ} : h.InChunk col ↔ ∀ c, h.odbcFetcher.currentChunk = some c →
      h.odbcFetcher.chunkRow ≠ -1 ∧ h.odbcFetcher.chunkRow < c.size ∧ col < res.columnCount := by
  refine forall₂_congr fun c hc => ?_
  have hlow := hi.low
  have hcolumns := hi.columnCount_eq hres hc
  have howns := owns_of_mem (hi.stored c hc)
  simp only [howns, true_and]
  omega

/-- With the cells there, every access is in range. -/
theorem Ordered.accessesInRange (ho : h.Ordered) (hc : CellsThere h call) :
    AccessesInRange E h call where
  fetch h₁ hl hb := (ho.landing hl).cellsInRange fun c hderef hrows =>
    hc.fetch h₁ c hl hb hderef hrows
  getData num t target len ind h₁ hcall hconv hreads := by
    have hi := (ho.convertHSTMTResult hconv).2 rfl
    rcases h.convertHSTMTResult_cases with ⟨res, hres, -, heq⟩ | ⟨diag, heq⟩ | ⟨-, -, heq⟩
    · rw [heq] at hconv
      cases hconv
      exact (hi.inChunk_iff hres).2 fun c hcur =>
        hc.getData num t target len ind res c hcall hres hreads hcur
    · rw [heq] at hconv
      cases hconv
    · rw [heq] at hconv
      cases hconv

end Calls

/-- Over every run of calls that find their cells there, every cell access is in range. -/
theorem cells_in_range (E : Engine ρ V) (junk : OdbcHandleStmt ρ V) (calls : List (Call ρ V))
    (hcalls : Run.Along (Step E) CellsThere (alloc junk) calls) :
    Run.Along (Step E) (AccessesInRange E) (alloc junk) calls := by
  refine hcalls.strengthen Ordered ?_ (fun h call ho hc => ho.accessesInRange hc) (.inl ⟨rfl, rfl⟩)
  rintro h call h' ho - ⟨n, r, hr, rfl⟩
  exact ho.perform hr

/-- A call that neither fetches nor reads a cell. -/
theorem cellsThere_of_none {h : OdbcHandleStmt ρ V} {call : Call ρ V}
    (hfetch : h.comesToFetch call = none)
    (hget : ∀ num t target len ind, call ≠ .getData num t target len ind) : CellsThere h call where
  fetch h₁ c hl := by
    rw [landing, hfetch] at hl
    cases hl
  getData num t target len ind _ _ hcall := absurd hcall (hget num t target len ind)

/-- A call that leads to `h'`, if it returns. -/
theorem along_step {E : Engine ρ V} {P : OdbcHandleStmt ρ V → Call ρ V → Prop}
    {h : OdbcHandleStmt ρ V} {call : Call ρ V} {calls : List (Call ρ V)} (h' : OdbcHandleStmt ρ V)
    (hP : P h call)
    (hx : ∀ n reply, h.perform E n call = some (.ok reply) → reply.h = h')
    (hrest : Run.Along (Step E) P h' calls) : Run.Along (Step E) P h (call :: calls) := by
  refine ⟨hP, ?_⟩
  rintro _ ⟨n, reply, hreply, rfl⟩
  rwa [hx n reply hreply]

/-- A handle on the only row of a result with two columns, the first of which is bound to `b`. -/
def twoColumns (b : OdbcBoundCol) (row count : ℤ) (noted : LastFetched) : OdbcHandleStmt ℕ ℕ :=
  let c : DataChunk ℕ := ⟨0, 2, ⟨[65], by simp⟩⟩
  { alloc (blank : OdbcHandleStmt ℕ ℕ) with
    stmt := some ⟨none, 0, 2, true, false⟩
    res := some { queryResult 2 [] with fetched := 1 }
    boundCols := [b, {}]
    opened := true
    odbcFetcher := ⟨.forwardOnly, count, noted, [c], 0, some c, row, -1, false⟩ }

/-- A query with two columns, the first of which is bound and the second read by `SQLGetData`. -/
theorem cells_in_range_select :
    Run.Along (Step byteEngine) (AccessesInRange byteEngine) (alloc (blank : OdbcHandleStmt ℕ ℕ))
      [.execDirect (.ok [select 2 [⟨[65], by simp⟩]]), .bindCol 1 ⟨.wchar, 100, 8, 200⟩,
        .fetchScroll .next 0, .getData 2 .wchar 300 8 400] := by
  refine cells_in_range byteEngine blank _ ?_
  refine along_step (twoColumns {} (-1) 0 ⟨-1, -1, 0⟩) (cellsThere_of_none rfl nofun) ?_ ?_
  · rintro (_ | n) reply hx
    · cases hx
    · obtain rfl := Except.ok.inj (Option.some.inj hx)
      rfl
  refine along_step (twoColumns ⟨.wchar, 100, 8, 200⟩ (-1) 0 ⟨-1, -1, 0⟩)
    (cellsThere_of_none rfl nofun) ?_ ?_
  · rintro n reply hx
    obtain rfl := Except.ok.inj (Option.some.inj hx)
    rfl
  refine along_step (twoColumns ⟨.wchar, 100, 8, 200⟩ 0 1 ⟨0, 0, 2⟩)
    ⟨?_, fun _ _ _ _ _ _ _ hcall => (nomatch hcall)⟩ ?_ ?_
  · rintro h₁ c hl - - - n hn col hcol
    obtain rfl : twoColumns ⟨.wchar, 100, 8, 200⟩ (-1) 0 ⟨-1, -1, 0⟩ = h₁ := Option.some.inj hl
    obtain rfl : 2 = n := Except.ok.inj hn
    exact ⟨hcol, fun _ res hres => Option.some.inj hres ▸ hcol⟩
  · rintro n reply hx
    obtain rfl := Except.ok.inj (Option.some.inj hx)
    rfl
  refine ⟨⟨fun _ _ hl => (nomatch hl), ?_⟩, fun _ _ => trivial⟩
  rintro num t target len ind res c hcall hres - hc
  obtain ⟨rfl, rfl, rfl, rfl, rfl⟩ := Call.getData.inj hcall
  obtain rfl := Option.some.inj hres
  obtain rfl := Option.some.inj hc
  exact ⟨by decide, by decide, by decide⟩

/-- Three runs that break it : a fetch with one of two columns bound after the bindings were
released, a column that the result does not have, and a cell before the first fetch. -/
theorem cell_out_of_range :
    ¬Run.Along (Step byteEngine) (AccessesInRange byteEngine) (alloc (blank : OdbcHandleStmt ℕ ℕ))
      [.execDirect (.ok [select 2 [⟨[65], by simp⟩]]), .unbind,
        .bindCol 1 ⟨.wchar, 100, 8, 200⟩, .fetchScroll .next 0] ∧
    ¬Run.Along (Step byteEngine) (AccessesInRange byteEngine) (alloc (blank : OdbcHandleStmt ℕ ℕ))
      [.execDirect (.ok [select 1 [⟨[65], by simp⟩]]), .fetchScroll .next 0,
        .getData 2 .wchar 100 8 200] ∧
    ¬Run.Along (Step byteEngine) (AccessesInRange byteEngine) (alloc (blank : OdbcHandleStmt ℕ ℕ))
      [.execDirect (.ok [select 1 [⟨[65], by simp⟩]]), .getData 1 .wchar 100 8 200] := by
  refine ⟨fun hall => ?_, fun hall => ?_, fun hall => ?_⟩
  · have hexec := hall.2 _ ⟨1, _, rfl, rfl⟩
    have hunbind := hexec.2 _ ⟨1, _, rfl, rfl⟩
    have hbind := hunbind.2 _ ⟨1, _, rfl, rfl⟩
    obtain ⟨b, hb, -⟩ := hbind.1.fetch _ rfl nofun 0 1 _
      ⟨_, _, 2, rfl, rfl, ⟨[], [], rfl, rfl⟩, [0], [], rfl, rfl⟩
    cases hb
  · have hexec := hall.2 _ ⟨1, _, rfl, rfl⟩
    have hfetch := hexec.2 _ ⟨1, _, rfl, rfl⟩
    have hin := hfetch.1.getData 2 .wchar 100 8 200 _ rfl rfl (by simp [ReadsValue]) _ rfl
    exact absurd hin.2.2.2 (by decide)
  · have hexec := hall.2 _ ⟨1, _, rfl, rfl⟩
    have hin := hexec.1.getData 1 .wchar 100 8 200 _ rfl rfl (by simp [ReadsValue]) _ rfl
    exact absurd hin.2.1 (by decide)

end OdbcHandleStmt

end HaybarnOdbc
