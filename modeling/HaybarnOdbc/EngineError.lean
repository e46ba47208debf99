import HaybarnOdbc.Scan

/-!
# Errors of the engine behind rows

A result whose chunks are followed by an error of the engine is read like any other one up to
its last row. The fetch after it gets the error from `FetchNext`, which posts it, records it in
the result and closes the statement (`Broken`). `SQLFetch` then looks at `open` and finds no
data, and `SQLFetchScroll` finds the error in the result.

Without a chunk the error comes at the execution, which fetches ahead. `error_is_reported` puts
the two together.

All this is for a statement that retrieves data. Under `SQL_RD_OFF` an `SQLFetch` is answered by
`DummyFetch`, which does not look at the result, so no number of calls gets to the error
(`not_reportsError_of_skips`).
-/

namespace HaybarnOdbc

variable {ρ V : Type}

open Segments

namespace OdbcHandleStmt

/-! ## The position in front of an error -/

/-- The cursor is on the chunk `c`, the last one taken from the engine, which has the chunks
`bs` left and then fails with `msg`. -/
structure BeforeError (h : OdbcHandleStmt ρ V) (cols : ℕ) (c : DataChunk ρ) (bs : List (Block ρ))
    (msg : String) : Prop where
  opened : h.opened = true
  res : ∃ res, h.res = some res ∧ res.pending = bs ∧ res.failure = some msg ∧ res.columnCount = cols
  stored : h.odbcFetcher.chunks.getLast? = some c
  current : h.odbcFetcher.currentChunk = some c
  idx : h.odbcFetcher.currentChunkIdx + 1 = h.odbcFetcher.chunks.length
  low : -1 ≤ h.odbcFetcher.chunkRow
  unseen : h.odbcFetcher.resultsetEnd = false

/-- The error was met : the statement is closed, and its result has the error. -/
structure Broken (h : OdbcHandleStmt ρ V) : Prop where
  closed : h.opened = false
  res : ∃ res, h.res = some res ∧ res.error.isSome

/-- The message is posted on the handle. -/
def Posted (h : OdbcHandleStmt ρ V) (msg : String) : Prop := ∃ d ∈ h.diag, d.msg = msg

namespace BeforeError

variable {h h' : OdbcHandleStmt ρ V} {cols : ℕ} {c : DataChunk ρ} {bs : List (Block ρ)}
  {msg : String}

theorem deref (hb : BeforeError h cols c bs msg) : h.odbcFetcher.deref = .ok c :=
  OdbcFetch.deref_eq_ok hb.current (List.mem_of_getLast? hb.stored)

/-- A chunk is needed just at the end of the current one. -/
theorem requireFetch_iff (hb : BeforeError h cols c bs msg) :
    h.odbcFetcher.requireFetch = true ↔ (c.size : ℤ) ≤ h.odbcFetcher.chunkRow + 1 := by
  simp only [OdbcFetch.requireFetch, hb.stored, decide_eq_true_eq]
  omega

theorem noted (hb : BeforeError h cols c bs msg) : BeforeError h.noted cols c bs msg :=
  ⟨hb.opened, hb.res, hb.stored, hb.current, hb.idx, hb.low, hb.unseen⟩

/-- Rows that are delivered leave the error in front. -/
theorem advanced {k : ℕ} (hb : BeforeError h cols c bs msg) (hadv : Advanced h k h') :
    BeforeError h' cols c bs msg := by
  have hrow := hadv.chunkRow
  have hlow := hb.low
  obtain ⟨count, last, diag, rfl⟩ := hadv
  exact ⟨hb.opened, hb.res, hb.stored, hb.current, hb.idx, by rw [hrow]; omega, hb.unseen⟩

/-- Rows of the current chunk are left. -/
theorem next_within (hb : BeforeError h cols c bs msg)
    (hrow : h.odbcFetcher.chunkRow + 1 < c.size) :
    h.fetchNextChunk .next 0 = .ok (.success, h.noted) := by
  rw [fetchNextChunk_next, if_neg]
  rw [hb.requireFetch_iff]
  omega

/-- The next chunk becomes the current one. -/
theorem onTaken {res : QueryResult ρ} {b : Block ρ} (hopen : h.opened = true)
    (hf : res.failure = some msg) (hend : h.odbcFetcher.resultsetEnd = false) :
    BeforeError (h.onTaken res b bs) res.columnCount ⟨res.fetched, res.columnCount, b⟩ bs msg := by
  refine ⟨hopen, ⟨_, rfl, rfl, hf, rfl⟩, ?_, rfl, ?_, ?_, hend⟩
  · simp only [OdbcHandleStmt.onTaken]
    split <;> simp
  · simp only [OdbcHandleStmt.onTaken]
    split <;> simp
  · simp [OdbcHandleStmt.onTaken]

/-- The current chunk is read, and the engine has another one. -/
theorem next_chunk {b : Block ρ} (hb : BeforeError h cols c (b :: bs) msg)
    (hrow : (c.size : ℤ) ≤ h.odbcFetcher.chunkRow + 1) :
    ∃ h' c', h.fetchNextChunk .next 0 = .ok (.success, h') ∧ BeforeError h' cols c' bs msg ∧
      c'.block = b ∧ c'.columnCount = cols ∧ h'.odbcFetcher.chunkRow = -1 ∧
      h'.odbcFetcher.lastFetched.length = 0 := by
  obtain ⟨res, hres, hp, hf, rfl⟩ := hb.res
  have hidx : h.odbcFetcher.chunks.length ≤ h.odbcFetcher.currentChunkIdx + 1 :=
    Nat.le_of_eq hb.idx.symm
  refine ⟨h.noted.onTaken res b bs, _, ?_, onTaken hb.opened hf hb.unseen, rfl, rfl, rfl, rfl⟩
  rw [fetchNextChunk_next, if_pos (hb.requireFetch_iff.mpr hrow), if_neg (by simp [hb.unseen])]
  exact fetchNext_onTaken (h := h.noted) hb.unseen hres hp hidx

/-- The last chunk is read, and the engine fails. -/
theorem next_error (hb : BeforeError h cols c [] msg)
    (hrow : (c.size : ℤ) ≤ h.odbcFetcher.chunkRow + 1) :
    ∃ h', h.fetchNextChunk .next 0 = .ok (.error, h') ∧ Broken h' ∧ h'.Posted msg := by
  obtain ⟨res, hres, hp, hf, -⟩ := hb.res
  have hnext := fetchNext_of_failure (h := h.noted) hb.unseen hres hp hf
  rw [fetchNextChunk_next, if_pos (hb.requireFetch_iff.mpr hrow), if_neg (by simp [hb.unseen]),
    hnext]
  exact ⟨_, rfl, ⟨rfl, _, rfl, rfl⟩, _, List.mem_append_right _ (List.mem_singleton_self _), rfl⟩

end BeforeError

/-! ## One fetch -/

/-- The position of a scan of a result that fails with `msg`, with the rowsets that are left in
front of the error. -/
inductive ScanningTo (E : Engine ρ V) (h : OdbcHandleStmt ρ V) (msg : String) :
    List (List ρ) → Prop
  | onChunk {cols : ℕ} {c : DataChunk ρ} {bs : List (Block ρ)} (hb : BeforeError h cols c bs msg)
      (hhigh : h.odbcFetcher.chunkRow < c.size) (hread : h.ReadSoFar) (hcols : c.columnCount = cols)
      (hr : Readable E h cols (c.block :: bs)) :
      ScanningTo E h msg
        (segments h.rowsetSize (c.rows.drop h.firstRow) ++ rowsets h.rowsetSize bs)

variable {E : Engine ρ V} {h : OdbcHandleStmt ρ V} {msg : String}

/-- The check of a fetch changes nothing. -/
theorem ScanningTo.convertHSTMT {rs : List (List ρ)} (hs : ScanningTo E h msg rs) :
    ScanningTo E h.convertHSTMT msg rs := by
  obtain ⟨hb, hhigh, hread, hcols, hr⟩ := hs
  have hb' : BeforeError h.convertHSTMT _ _ _ msg :=
    ⟨hb.opened, hb.res, hb.stored, hb.current, hb.idx, hb.low, hb.unseen⟩
  exact .onChunk hb' hhigh hread hcols (hr.of_same ⟨rfl, rfl, rfl, rfl⟩ (List.Subset.refl _))

/-- A delivery on a chunk with rows left : the next rowset, and the rest of the chunk. -/
theorem BeforeError.deliver {cols : ℕ} {c : DataChunk ρ} {bs : List (Block ρ)}
    (hb : BeforeError h cols c bs msg) (hrow : h.odbcFetcher.chunkRow + 1 < c.size)
    (hread : h.ReadSoFar) (hcols : c.columnCount = cols) (hr : Readable E h cols (c.block :: bs)) :
    ∃ d rs, h.deliver E = .ok d ∧ Delivers (some (h.rowset c)) d ∧
    Advanced h (h.rowset c).length d.h ∧
      ScanningTo E d.h msg rs ∧
      segments h.rowsetSize (c.rows.drop h.firstRow) ++ rowsets h.rowsetSize bs =
        h.rowset c :: rs := by
  obtain ⟨d, hdeliver, hdel, hadv, hread'⟩ :=
    deliver_readable hb.deref hb.low hrow (.inr (hread.unread _)) hcols hr
  have hsame := hadv.sameBindings
  have hcr := hadv.chunkRow
  refine ⟨d, _, hdeliver, hdel, hadv, .onChunk (hb.advanced hadv) (hadv.chunkRow_lt hb.low hrow)
    (hread.of_readRows hread' (by omega)) hcols (hr.of_same hsame (List.Subset.refl _)), ?_⟩
  rw [segments_rowset hb.low hrow hr.pos hcr, hsame.rowsetSize]
  rfl

/-- What a fetch does not change of a statement. -/
structure SameStatement (h h' : OdbcHandleStmt ρ V) : Prop where
  stmt : h'.stmt = h.stmt
  retrieveData : h'.retrieveData = h.retrieveData
  paramDesc : h'.paramDesc = h.paramDesc

theorem Moved.sameStatement {h' : OdbcHandleStmt ρ V} (hm : Moved h h') : SameStatement h h' :=
  ⟨hm.stmt, hm.retrieveData, hm.paramDesc⟩

/-- Delivered rows leave the statement as it is. -/
theorem SameStatement.advanced {h' h'' : OdbcHandleStmt ρ V} {k : ℕ} (hs : SameStatement h h')
    (hadv : Advanced h' k h'') : SameStatement h h'' := by
  obtain ⟨count, last, diag, rfl⟩ := hadv
  exact ⟨hs.stmt, hs.retrieveData, hs.paramDesc⟩

/-- What a fetch finds at a position of such a scan : the next rowset, or the error. -/
def Finds (E : Engine ρ V) (msg : String) (d : Delivery ρ V) : List (List ρ) → Prop
  | r :: rs => Delivers (some r) d ∧ ScanningTo E d.h msg rs
  | [] => d.ret = .error ∧ d.rows = [] ∧ Broken d.h ∧ d.h.Posted msg

/-- One fetch of the scan. -/
theorem ScanningTo.step {rs : List (List ρ)} (hs : ScanningTo E h msg rs) :
    ∃ d, h.fetchStmtResult E .next 0 = .ok d ∧ SameStatement h d.h ∧ Finds E msg d rs := by
  obtain @⟨cols, c, bs, hb, hhigh, hread, hcols, hr⟩ := hs
  have hfirst := firstRow_of_low hb.low
  have hlen : c.rows.length = c.size := rfl
  by_cases hrow : h.odbcFetcher.chunkRow + 1 < c.size
  · -- the rest of the current chunk is not empty
    have hr' : Readable E h.noted cols (c.block :: bs) :=
      hr.of_same ⟨rfl, rfl, rfl, rfl⟩ (List.Subset.refl _)
    obtain ⟨d, rs, hd, hdel, hadv, hscan, hsplit⟩ := hb.noted.deliver hrow hread hcols hr'
    have hsplit' : segments h.rowsetSize (c.rows.drop h.firstRow) ++ rowsets h.rowsetSize bs =
        h.noted.rowset c :: rs := hsplit
    have hnext := hb.next_within hrow
    rw [hsplit', fetchStmtResult_of_open hb.opened hnext]
    exact ⟨d, hd, (moved_fetchNextChunk hnext).sameStatement.advanced hadv, hdel, hscan⟩
  have hdone : c.rows.drop h.firstRow = [] := by
    rw [List.drop_eq_nil_iff]
    omega
  rw [hdone, segments_nil, List.nil_append]
  cases bs with
  | nil =>
    obtain ⟨h', hnext, hbroken, hposted⟩ := hb.next_error (by omega)
    rw [fetchStmtResult_of_open hb.opened hnext]
    exact ⟨_, rfl, (moved_fetchNextChunk hnext).sameStatement, rfl, rfl, hbroken, hposted⟩
  | cons b bs =>
    obtain ⟨h', c', hnext, hb', hblock, hcols', hcr, hlast⟩ := hb.next_chunk (by omega)
    have hsame := (moved_fetchNextChunk hnext).sameBindings
    have hsize := c'.size_pos
    have hr' : Readable E h' cols (c'.block :: bs) := by
      rw [hblock]
      exact hr.of_same hsame (List.subset_cons_self _ _)
    obtain ⟨d, rs, hd, hdel, hadv, hscan, hsplit⟩ :=
      hb'.deliver (by rw [hcr]; omega) (.inl hlast) hcols' hr'
    have hfirst' : h'.firstRow = 0 := by simp only [firstRow, hcr]; rfl
    have hbrows : c'.rows = b.rows := by simp only [DataChunk.rows, hblock]
    rw [hfirst', List.drop_zero, hbrows, hsame.rowsetSize] at hsplit
    have hcons : rowsets h.rowsetSize (b :: bs) = h'.rowset c' :: rs := hsplit
    rw [hcons, fetchStmtResult_of_open hb.opened hnext]
    exact ⟨d, hd, (moved_fetchNextChunk hnext).sameStatement.advanced hadv, hdel, hscan⟩

/-! ## The calls -/

/-- A statement whose `SQLFetch` goes to its result : it is prepared, it retrieves data, and it
has no parameter set left that the fetch would execute. -/
structure Retrieves (h : OdbcHandleStmt ρ V) : Prop where
  prepared : ∃ stmt, h.stmt = some stmt ∧ stmt.error = none
  retrieveData : h.retrieveData = true
  noSet : h.paramDesc.hasParamSetToProcess = false

theorem Retrieves.of_same {h' : OdbcHandleStmt ρ V} (hr : Retrieves h) (hs : SameStatement h h') :
    Retrieves h' where
  prepared := by rw [hs.stmt]; exact hr.prepared
  retrieveData := hs.retrieveData.trans hr.retrieveData
  noSet := by rw [hs.paramDesc]; exact hr.noSet

/-- `SQLFetch` is a fetch of the next rows. -/
theorem sqlFetch_of_retrieves (hr : Retrieves h) (source : ParamSource V)
    (result : QueryResult ρ) :
    h.sqlFetch E source result = (h.convertHSTMT.fetchStmtResult E .next 0).map fun d =>
      { ret := d.ret, h := d.h, rows := d.rows, writes := d.writes } := by
  obtain ⟨stmt, hstmt, herr⟩ := hr.prepared
  have hprepared : h.convertHSTMTPrepared = (.success, h.convertHSTMT) := by
    simp only [convertHSTMTPrepared, convertHSTMT, hstmt, herr]
  have hdummy : h.convertHSTMT.dummyFetch = (.needData, []) := if_pos hr.retrieveData
  have hexecute : h.convertHSTMT.executeBeforeFetch source result =
      .ok ⟨.success, h.convertHSTMT, []⟩ := by
    have hprepared' : h.convertHSTMT.convertHSTMTPrepared = (.success, h.convertHSTMT) := by
      simp only [convertHSTMTPrepared, convertHSTMT, hstmt, herr]
    have hnoSet : h.convertHSTMT.paramDesc.hasParamSetToProcess = false := hr.noSet
    unfold executeBeforeFetch
    rw [hprepared']
    dsimp only
    rw [hnoSet]
    simp only [Bool.false_eq_true, if_false, ite_self]
    rfl
  unfold sqlFetch
  rw [hprepared]
  dsimp only
  rw [hdummy]
  dsimp only
  rw [hexecute]
  dsimp only [bind, Except.bind]
  rw [if_neg (by simp)]
  cases h.convertHSTMT.fetchStmtResult E .next 0 <;> rfl

/-- `SQLFetch`, with the handle after it. -/
def fetchStep (E : Engine ρ V) (h : OdbcHandleStmt ρ V) (a : ParamSource V × QueryResult ρ) :
    Except Fault (Reply ρ V × OdbcHandleStmt ρ V) :=
  (h.sqlFetch E a.1 a.2).map fun r => (r, r.h)

/-- The calls that fetch rows. -/
inductive FetchCall (ρ V : Type)
  | fetch (source : ParamSource V) (result : QueryResult ρ)
  | scroll (orientation : FetchOrientation) (offset : ℤ)

/-- `SQLFetch` or `SQLFetchScroll`, with the handle after it. -/
def fetchCallStep (E : Engine ρ V) (h : OdbcHandleStmt ρ V) :
    FetchCall ρ V → Except Fault (Reply ρ V × OdbcHandleStmt ρ V)
  | .fetch source result => (h.sqlFetch E source result).map fun r => (r, r.h)
  | .scroll orientation offset => (h.sqlFetchScroll E orientation offset).map fun r => (r, r.h)

/-- A fetch from a statement that met an error delivers no row, and leaves it so. -/
theorem fetchCallStep_of_broken (hr : Retrieves h) (hb : Broken h) (c : FetchCall ρ V) :
    ∃ r h', fetchCallStep E h c = .ok (r, h') ∧ r.rows = [] ∧ Retrieves h' ∧ Broken h' := by
  obtain ⟨res, hres, herror⟩ := hb.res
  cases c with
  | fetch source result =>
    have hclosed : h.convertHSTMT.fetchStmtResult E .next 0 =
      .ok ⟨.noData, h.convertHSTMT, [], []⟩ :=
      if_pos (by simp [convertHSTMT, hb.closed])
    refine ⟨{ ret := .noData, h := h.convertHSTMT }, h.convertHSTMT, ?_, rfl,
      hr.of_same ⟨rfl, rfl, rfl⟩, hb.closed, res, hres, herror⟩
    rw [fetchCallStep, sqlFetch_of_retrieves hr, hclosed]
    rfl
  | scroll orientation offset =>
    by_cases hother : orientation = .other
    · refine ⟨{ ret := .error, h := h }, h, ?_, rfl, hr, hb⟩
      rw [fetchCallStep, sqlFetchScroll, if_pos hother]
      rfl
    obtain ⟨stmt, hstmt, -⟩ := hr.prepared
    have hresult : ∃ diag, h.convertHSTMTResult = .ok (.error, { h with diag := diag }) := by
      rcases convertHSTMTResult_cases h with ⟨res', hres', hnone, -⟩ | hfail | ⟨-, hnone, -⟩
      · rw [hres] at hres'
        rw [Option.some.inj hres', hnone] at herror
        cases herror
      · exact hfail
      · rw [hstmt] at hnone
        cases hnone
    obtain ⟨diag, hdiag⟩ := hresult
    refine ⟨{ ret := .error, h := { h with diag := diag } }, { h with diag := diag }, ?_, rfl,
      hr.of_same ⟨rfl, rfl, rfl⟩, hb.closed, res, hres, herror⟩
    rw [fetchCallStep, sqlFetchScroll, if_neg hother, hdiag]
    rfl

/-! ## Runs -/

/-- What a run of fetches from the result reports : the `SQLFetch` calls deliver the rows, between
one and a rowset of them each, the next one gets the error with its message, and no later
`SQLFetch` or `SQLFetchScroll` delivers a row. -/
def ReportsError (E : Engine ρ V) (h : OdbcHandleStmt ρ V) (rows : List ρ) (msg : String) : Prop :=
  ∃ rs : List (List ρ), rs.flatten = rows ∧ (∀ r ∈ rs, 1 ≤ r.length ∧ r.length ≤ h.rowsetSize) ∧
    ∀ is : List (ParamSource V × QueryResult ρ), is.length = rs.length + 1 →
      ∃ replies h', Run.outputs (fetchStep E) h is = .ok (replies, h') ∧
        (∀ (i : ℕ) r reply, rs[i]? = some r → replies[i]? = some reply →
          reply.ret.succeeded = true ∧ reply.rows = r) ∧
        (∀ reply, replies[rs.length]? = some reply →
          reply.ret = .error ∧ reply.rows = [] ∧ reply.h.Posted msg) ∧
        ∀ calls : List (FetchCall ρ V), ∃ later h'',
          Run.outputs (fetchCallStep E) h' calls = .ok (later, h'') ∧
            ∀ reply ∈ later, reply.rows = []

/-- The fetches after the error. -/
theorem outputs_of_broken (hr : Retrieves h) (hb : Broken h) (calls : List (FetchCall ρ V)) :
    ∃ later h', Run.outputs (fetchCallStep E) h calls = .ok (later, h') ∧
      ∀ reply ∈ later, reply.rows = [] := by
  induction calls generalizing h with
  | nil => exact ⟨[], h, rfl, by simp⟩
  | cons c calls ih =>
    obtain ⟨r, h₁, hstep, hrows, hr₁, hb₁⟩ := fetchCallStep_of_broken (E := E) hr hb c
    obtain ⟨later, h', hrun, hlater⟩ := ih hr₁ hb₁
    refine ⟨r :: later, h', by rw [Run.outputs, hstep]; dsimp only; rw [hrun], ?_⟩
    exact List.forall_mem_cons.mpr ⟨hrows, hlater⟩

/-- The fetches up to the error, by induction on the rowsets that are left. -/
theorem outputs_of_scanningTo {rs : List (List ρ)} (hr : Retrieves h)
    (hs : ScanningTo E h msg rs) (is : List (ParamSource V × QueryResult ρ))
    (hlen : is.length = rs.length + 1) :
    ∃ replies h', Run.outputs (fetchStep E) h is = .ok (replies, h') ∧
      (∀ (i : ℕ) r reply, rs[i]? = some r → replies[i]? = some reply →
        reply.ret.succeeded = true ∧ reply.rows = r) ∧
      (∀ reply, replies[rs.length]? = some reply →
        reply.ret = .error ∧ reply.rows = [] ∧ reply.h.Posted msg) ∧
      Retrieves h' ∧ Broken h' := by
  induction rs generalizing h is with
  | nil =>
    obtain ⟨i, rfl⟩ := List.length_eq_one_iff.mp hlen
    obtain ⟨d, hd, hsame, hret, hrows, hbroken, hposted⟩ := hs.convertHSTMT.step
    have hr' : Retrieves h.convertHSTMT := hr.of_same ⟨rfl, rfl, rfl⟩
    refine ⟨[{ ret := d.ret, h := d.h, rows := d.rows, writes := d.writes }], d.h, ?_, by simp, ?_,
      hr'.of_same hsame, hbroken⟩
    · rw [Run.outputs, fetchStep, sqlFetch_of_retrieves hr, hd]
      rfl
    · intro reply hreply
      obtain rfl := Option.some.inj hreply
      exact ⟨hret, hrows, hposted⟩
  | cons r rs ih =>
    obtain ⟨i, is, rfl⟩ := List.exists_cons_of_length_eq_add_one hlen
    obtain ⟨d, hd, hsame, hdel, hscan⟩ := hs.convertHSTMT.step
    have hr' : Retrieves h.convertHSTMT := hr.of_same ⟨rfl, rfl, rfl⟩
    obtain ⟨replies, h', hrun, hrowsets, herror, hend⟩ :=
      ih (hr'.of_same hsame) hscan is (by simpa using hlen)
    refine ⟨{ ret := d.ret, h := d.h, rows := d.rows, writes := d.writes } :: replies, h', ?_, ?_,
      herror, hend⟩
    · rw [Run.outputs, fetchStep, sqlFetch_of_retrieves hr, hd]
      dsimp only [Except.map]
      rw [hrun]
    · intro k r' reply hk hreply
      cases k with
      | zero =>
        obtain rfl := Option.some.inj hk
        obtain rfl := Option.some.inj hreply
        exact ⟨hdel.1, hdel.2.1⟩
      | succ k => exact hrowsets k r' reply hk hreply

/-! ## Fetches that do not retrieve -/

/-- A statement whose `SQLFetch` leaves its result alone : it is prepared, and its data is not
retrieved. -/
structure Skips (h : OdbcHandleStmt ρ V) : Prop where
  prepared : ∃ stmt, h.stmt = some stmt ∧ stmt.error = none
  retrieveData : h.retrieveData = false

theorem Skips.convertHSTMT (hs : Skips h) : Skips h.convertHSTMT :=
  ⟨hs.prepared, hs.retrieveData⟩

/-- A fetch that retrieves nothing succeeds or has no data. -/
theorem dummyFetch_of_skips (hs : Skips h) :
    h.dummyFetch.1 = .success ∨ h.dummyFetch.1 = .noData := by
  have hoff : ¬h.retrieveData = true := by rw [hs.retrieveData]; simp
  unfold dummyFetch
  rw [if_neg hoff]
  extract_lets n row size
  by_cases hsize : size ≤ 0
  · rw [if_pos hsize]
    exact .inr rfl
  · rw [if_neg hsize]
    exact .inl rfl

/-- `DummyFetch` answers, with rows that are there in number only or with their end. -/
theorem fetchStep_of_skips (hs : Skips h) (i : ParamSource V × QueryResult ρ) :
    ∃ reply, fetchStep E h i = .ok (reply, h.convertHSTMT) ∧
      (reply.ret = .success ∨ reply.ret = .noData) ∧ reply.rows = [] := by
  obtain ⟨stmt, hstmt, herr⟩ := hs.prepared
  have hprepared : h.convertHSTMTPrepared = (.success, h.convertHSTMT) := by
    simp only [convertHSTMTPrepared, OdbcHandleStmt.convertHSTMT, hstmt, herr]
  have hret := dummyFetch_of_skips hs.convertHSTMT
  refine ⟨{ ret := h.convertHSTMT.dummyFetch.1, h := h.convertHSTMT,
            writes := h.convertHSTMT.dummyFetch.2 }, ?_, hret, rfl⟩
  rw [fetchStep, sqlFetch, hprepared]
  dsimp only
  generalize h.convertHSTMT.dummyFetch = answer at hret ⊢
  obtain ⟨ret, writes⟩ := answer
  rcases hret with rfl | rfl <;> rfl

/-- Without data to retrieve no fetch shows a row or the error. -/
theorem outputs_of_skips (hs : Skips h) (is : List (ParamSource V × QueryResult ρ)) :
    ∃ replies h', Run.outputs (fetchStep E) h is = .ok (replies, h') ∧
      replies.length = is.length ∧
      ∀ reply ∈ replies, (reply.ret = .success ∨ reply.ret = .noData) ∧ reply.rows = [] := by
  induction is generalizing h with
  | nil => exact ⟨[], h, rfl, rfl, by simp⟩
  | cons i is ih =>
    obtain ⟨reply, hstep, hreply⟩ := fetchStep_of_skips (E := E) hs i
    obtain ⟨replies, h', hrun, hlen, hreplies⟩ := ih hs.convertHSTMT
    refine ⟨reply :: replies, h', by rw [Run.outputs, hstep]; dsimp only; rw [hrun], ?_, ?_⟩
    · rw [List.length_cons, List.length_cons, hlen]
    · exact List.forall_mem_cons.mpr ⟨hreply, hreplies⟩

/-- Such fetches report no error, however many there are. -/
theorem not_reportsError_of_skips (hs : Skips h) (rows : List ρ) : ¬ReportsError E h rows msg := by
  rintro ⟨rs, -, -, hrun⟩
  let idle : ParamSource V × QueryResult ρ := (fun _ _ => .failed .error, queryResult 1 [])
  obtain ⟨replies, h', houtputs, -, herror, -⟩ :=
    hrun (List.replicate (rs.length + 1) idle) List.length_replicate
  obtain ⟨replies', h'', houtputs', hlen, hreplies⟩ :=
    outputs_of_skips (E := E) hs (List.replicate (rs.length + 1) idle)
  obtain ⟨rfl, -⟩ := Prod.mk.inj (Except.ok.inj (houtputs.symm.trans houtputs'))
  have hlt : rs.length < replies.length := by rw [hlen, List.length_replicate]; omega
  have hret := (herror _ (List.getElem?_eq_getElem hlt)).1
  rcases (hreplies _ (List.getElem_mem hlt)).1 with hok | hok <;> rw [hok] at hret <;> cases hret

/-! ## After an execution -/

/-- The cursor is in front of a result with a first chunk, which the engine handed over, and an
error behind its chunks. -/
def InFrontOfError (h : OdbcHandleStmt ρ V) (cols : ℕ) (b : Block ρ) (bs : List (Block ρ))
    (msg : String) : Prop :=
  ∃ c, BeforeError h cols c bs msg ∧ c.block = b ∧ c.columnCount = cols ∧
    h.odbcFetcher.chunkRow = -1 ∧ h.odbcFetcher.lastFetched.length = 0

namespace InFrontOfError

variable {h' : OdbcHandleStmt ρ V} {cols : ℕ} {b : Block ρ} {bs : List (Block ρ)}

/-- New bindings leave the error in front. -/
theorem rebound (hi : InFrontOfError h cols b bs msg) (hr : Rebound h h') :
    InFrontOfError h' cols b bs msg := by
  obtain ⟨bound, desc, ptr, type, diag, rfl⟩ := hr
  obtain ⟨c, hb, hrest⟩ := hi
  exact ⟨c, ⟨hb.opened, hb.res, hb.stored, hb.current, hb.idx, hb.low, hb.unseen⟩, hrest⟩

theorem of_odbcFetcher (hi : InFrontOfError h cols b bs msg)
    (hfetcher : h'.odbcFetcher = h.odbcFetcher) (hopened : h'.opened = h.opened)
    (hres : h'.res = h.res) : InFrontOfError h' cols b bs msg := by
  obtain ⟨c, hb, hrest⟩ := hi
  exact ⟨c, ⟨hopened ▸ hb.opened, hres ▸ hb.res, hfetcher ▸ hb.stored, hfetcher ▸ hb.current,
    hfetcher ▸ hb.idx, hfetcher ▸ hb.low, hfetcher ▸ hb.unseen⟩, by rw [hfetcher]; exact hrest⟩

/-- The scan goes to the error. -/
theorem scanningTo (hi : InFrontOfError h cols b bs msg) (hr : Readable E h cols (b :: bs)) :
    ScanningTo E h msg (rowsets h.rowsetSize (b :: bs)) := by
  obtain ⟨c, hb, rfl, hcols, hcr, hlast⟩ := hi
  have hsize := c.size_pos
  have hscan := ScanningTo.onChunk hb (by rw [hcr]; omega) (.inl hlast) hcols hr
  have hfirst : h.firstRow = 0 := by simp only [firstRow, hcr]; rfl
  rw [hfirst, List.drop_zero] at hscan
  exact hscan

end InFrontOfError

section Fresh

variable {result : QueryResult ρ} {f : OdbcFetch ρ}

/-- `FetchFirst` on a fresh result without a chunk. -/
theorem fetchFirst_error (hres : h.res = some result) (hp : result.pending = [])
    (hf : result.failure = some msg) (hfetcher : h.odbcFetcher = f.clearChunks) :
    ∃ h', h.fetchFirst = .ok (.error, h') ∧ h'.Posted msg := by
  obtain ⟨hend, -, -⟩ := atFront_cleared hfetcher
  have hnext := fetchNext_of_failure (h := h.atFront) hend hres hp hf
  rw [fetchFirst_of_cleared hfetcher hnext]
  exact ⟨_, rfl, _, List.mem_append_right _ (List.mem_singleton_self _), rfl⟩

/-- `FetchFirst` on a fresh result with a first chunk. -/
theorem fetchFirst_inFrontOfError {b : Block ρ} {bs : List (Block ρ)} (hopen : h.opened = true)
    (hres : h.res = some result) (hp : result.pending = b :: bs) (hf : result.failure = some msg)
    (hfetcher : h.odbcFetcher = f.clearChunks) :
    ∃ h', h.fetchFirst = .ok (.success, h') ∧ InFrontOfError h' result.columnCount b bs msg := by
  obtain ⟨hend, hchunks, -⟩ := atFront_cleared hfetcher
  have hnext := fetchNext_onTaken (h := h.atFront) hend hres hp (by rw [hchunks]; simp)
  have htaken : BeforeError (h.atFront.onTaken result b bs) result.columnCount
      ⟨result.fetched, result.columnCount, b⟩ bs msg := .onTaken hopen hf hend
  rw [fetchFirst_of_cleared hfetcher hnext]
  refine ⟨_, rfl, ⟨result.fetched, result.columnCount, b⟩, ?_, rfl, rfl, rfl, rfl⟩
  exact ⟨htaken.opened, htaken.res, htaken.stored, htaken.current, htaken.idx, htaken.low,
    htaken.unseen⟩

end Fresh

/-- A batch that ended well has executed all of its sets, of the statement that it started
with. -/
theorem noSet_of_batch {a : ExecAnswers ρ V} {ret : SqlReturn} {b : Batch ρ V}
    (hend : BatchEnds a h (.ok (ret, b))) (hret : ret.succeeded) :
    b.h.paramDesc.hasParamSetToProcess = false ∧ b.h.stmt = h.stmt ∧
      b.h.retrieveData = h.retrieveData := by
  obtain ⟨n, hn⟩ := hend
  have hturn : ∀ (b b' : Batch ρ V) (r : SqlReturn), batchBody a b = .ok (r, b') →
      b'.h.stmt = b.h.stmt ∧ b'.h.retrieveData = b.h.retrieveData ∧
      (r.succeeded = true → b'.h.paramDesc.hasParamSetToProcess = false) := by
    intro b b' r hbody
    obtain ⟨log, hx, -, -⟩ := batchBody_cases hbody
    obtain ⟨h', turn', log'⟩ := b'
    dsimp only at hx ⊢
    cases hx with
    | unread hfail =>
      exact ⟨rfl, rfl, fun hr => by rcases hfail with rfl | rfl <;> cases hr⟩
    | failed => exact ⟨rfl, rfl, nofun⟩
    | once _ _ hrec =>
      refine ⟨rfl, rfl, fun _ => ?_⟩
      simp [ParameterDescriptor.hasParamSetToProcess, started, hrec]
    | set =>
      refine ⟨rfl, rfl, fun hr => ?_⟩
      unfold setRet at hr
      by_cases hlast : (b.h.paramDesc.paramsetIdx + 1) % 2 ^ 64 =
          b.h.paramDesc.apd.header.arraySize
      · show decide (_ < _ ∧ _) = false
        rw [decide_eq_false_iff_not]
        exact fun hmore => absurd hmore.1 (by dsimp only [started]; omega)
      · rw [if_neg hlast] at hr
        cases hr
  refine DoWhile.run_invariant (batchBody a) (· = .stillExecuting)
    (fun b => b.h.stmt = h.stmt ∧ b.h.retrieveData = h.retrieveData)
    (fun x => ∀ ret b, x = .ok (ret, b) → ret.succeeded = true →
      b.h.paramDesc.hasParamSetToProcess = false ∧ b.h.stmt = h.stmt ∧
        b.h.retrieveData = h.retrieveData) ?_ ?_ ?_ ⟨rfl, rfl⟩ hn ret b rfl hret
  · intro b e _ _ ret b' hcontra
    cases hcontra
  · rintro b r b' ⟨hstmt, hdata⟩ hbody -
    obtain ⟨hstmt', hdata', -⟩ := hturn b b' r hbody
    exact ⟨hstmt'.trans hstmt, hdata'.trans hdata⟩
  · rintro b r b' ⟨hstmt, hdata⟩ hbody - ret₁ b₁ heq hsucc
    cases heq
    obtain ⟨hstmt', hdata', hnone⟩ := hturn b b' r hbody
    exact ⟨hnone hsucc, hstmt'.trans hstmt, hdata'.trans hdata⟩

/-- `BatchExecuteStmt` fetches ahead, and gets an error that is in front of any chunk. -/
theorem batchFinish_error {ret : SqlReturn} {result : QueryResult ρ} {f : OdbcFetch ρ}
    (log : List (ExecEvent V)) (hret : ret.succeeded) (hres : h.res = some result)
    (hp : result.pending = []) (hf : result.failure = some msg)
    (hfetcher : h.odbcFetcher = f.clearChunks) :
    ∃ x, batchFinish ret h log = .ok x ∧ x.ret = .error ∧ x.h.Posted msg := by
  obtain ⟨h', hfirst, hposted⟩ := fetchFirst_error hres hp hf hfetcher
  refine ⟨⟨.error, h', log⟩, ?_, rfl, hposted⟩
  unfold batchFinish
  rw [if_neg (by simpa using hret), hfirst]
  rfl

/-- With a chunk in front of the error the execution succeeds. -/
theorem batchFinish_inFrontOfError {ret : SqlReturn} {result : QueryResult ρ} {f : OdbcFetch ρ}
    {b : Block ρ} {bs : List (Block ρ)} {stmt : PreparedStatement} (log : List (ExecEvent V))
    (hret : ret.succeeded) (hopen : h.opened = true) (hstmt : h.stmt = some stmt)
    (hprepared : stmt.error = none) (hres : h.res = some result) (hp : result.pending = b :: bs)
    (hf : result.failure = some msg) (hfetcher : h.odbcFetcher = f.clearChunks) :
    ∃ x, batchFinish ret h log = .ok x ∧ x.ret = ret ∧
      InFrontOfError x.h result.columnCount b bs msg ∧
      (∃ stmt, x.h.stmt = some stmt ∧ stmt.error = none) ∧ x.h.paramDesc = h.paramDesc ∧
      x.h.retrieveData = h.retrieveData := by
  obtain ⟨h', hfirst, hfront⟩ := fetchFirst_inFrontOfError hopen hres hp hf hfetcher
  have hmoved := moved_fetchFirst hfirst
  obtain ⟨res', hres'⟩ : ∃ res', h'.res = some res' :=
    Option.isSome_iff_exists.mp (by rw [hmoved.res, hres]; rfl)
  have hstmt' : h'.stmt = some stmt := hmoved.stmt.trans hstmt
  unfold batchFinish
  rw [if_neg (by simpa using hret), hfirst]
  dsimp only [bind, Except.bind]
  rw [if_neg (by simp), hstmt']
  dsimp only
  by_cases hall : stmt.boundAllParameters = true
  · rw [if_pos hall]
    exact ⟨_, rfl, rfl, hfront, ⟨stmt, hstmt', hprepared⟩, hmoved.paramDesc, hmoved.retrieveData⟩
  · rw [if_neg hall, hres']
    exact ⟨_, rfl, rfl, hfront.of_odbcFetcher rfl rfl hres'.symm, ⟨_, rfl, hprepared⟩,
      hmoved.paramDesc, hmoved.retrieveData⟩

/-- An error of the engine that follows the chunks of a result is not taken for the end of the
data. Without a chunk the execution fails. Otherwise the fetches deliver all rows in front of
the error, then one reports it, and no row comes after it, just when the statement retrieves
data. -/
theorem error_is_reported (E : Engine ρ V) {a : ExecAnswers ρ V} {h : OdbcHandleStmt ρ V}
    {ret : SqlReturn} {b : Batch ρ V} {result : QueryResult ρ} {msg : String}
    (hstmt : ∃ stmt, h.stmt = some stmt ∧ stmt.error = none)
    (hend : BatchEnds a h (.ok (ret, b))) (hret : ret.succeeded) (hres : b.h.res = some result)
    (hf : result.failure = some msg) :
    ∃ k x, (∀ m, k ≤ m → h.batchExecuteStmt m a = some (.ok x)) ∧
      (result.pending = [] → x.ret = .error ∧ x.h.Posted msg) ∧
      (result.pending ≠ [] → x.ret.succeeded ∧ ∀ h', Rebound x.h h' →
        Bindings h' result.columnCount → (∀ b ∈ result.pending, BlockConverts E h' b) →
        (ReportsError E h' (result.pending.flatMap Block.rows) msg ↔ h.retrieveData = true)) := by
  obtain ⟨stmt, hs, hprepared⟩ := hstmt
  obtain ⟨hnoSet, hsame, hsameData⟩ := noSet_of_batch hend hret
  have hfresh := freshResult_of_batch hend hret
  obtain ⟨f, hcleared⟩ := hfresh.cleared
  obtain ⟨k, hrun⟩ := hend
  have hbatch : ∀ m, k ≤ m → h.batchExecuteStmt m a = some (batchFinish ret b.h b.log) := by
    intro m hm
    rw [batchExecuteStmt, DoWhile.run_mono hrun hm]
    rfl
  cases hp : result.pending with
  | nil =>
    obtain ⟨x, hx, hxret, hposted⟩ := batchFinish_error b.log hret hres hp hf hcleared
    exact ⟨k, x, fun m hm => by rw [hbatch m hm, hx], fun _ => ⟨hxret, hposted⟩, absurd rfl⟩
  | cons block bs =>
    obtain ⟨x, hx, hxret, hfront, hprepared', hparam, hxdata⟩ := batchFinish_inFrontOfError b.log
      hret hfresh.opened (hsame.trans hs) hprepared hres hp hf hcleared
    refine ⟨k, x, fun m hm => by rw [hbatch m hm, hx], fun hnil => absurd hnil
      (List.cons_ne_nil _ _), fun _ => ⟨hxret ▸ hret, ?_⟩⟩
    intro h' hbound hb hconv
    have hsame' : SameStatement x.h h' := by
      obtain ⟨bound, desc, ptr, type, diag, rfl⟩ := hbound
      exact ⟨rfl, rfl, rfl⟩
    have hdata' : h'.retrieveData = h.retrieveData :=
      hsame'.retrieveData.trans (hxdata.trans hsameData)
    refine ⟨fun hreports => ?_, fun hdata => ?_⟩
    · by_contra hoff
      have hskips : Skips h' :=
        ⟨by rw [hsame'.stmt]; exact hprepared', hdata'.trans (Bool.eq_false_of_not_eq_true hoff)⟩
      exact not_reportsError_of_skips hskips _ hreports
    have hretrieves : Retrieves x.h :=
      ⟨hprepared', hxdata.trans (hsameData.trans hdata), by rw [hparam]; exact hnoSet⟩
    have hretrieves' : Retrieves h' := hretrieves.of_same hsame'
    have hscan := (hfront.rebound hbound).scanningTo (.inl ⟨hb, hconv⟩)
    refine ⟨rowsets h'.rowsetSize (block :: bs), flatten_rowsets hb.pos _,
      fun _ hr => length_of_mem_rowsets hb.pos hr, fun is hlen => ?_⟩
    obtain ⟨replies, h'', houtputs, hrows, herror, hr'', hbroken⟩ :=
      outputs_of_scanningTo hretrieves' hscan is hlen
    exact ⟨replies, h'', houtputs, hrows, herror, outputs_of_broken hr'' hbroken⟩

/-- A prepared query of one column whose data is retrieved. -/
def preparedQuery : OdbcHandleStmt ℕ ℕ := { preparedBytes with retrieveData := true }

/-- Three rows in a chunk, and then an error. -/
def threeRowsThenError : ExecAnswers ℕ ℕ :=
  ⟨fun _ _ => .failed .error,
    fun _ => { queryResult 1 [⟨[1, 2, 3], by simp⟩] with failure := some "Conversion Error" }⟩

/-- Three rows are delivered and then the error. -/
theorem error_is_reported_bytes :
    ∃ k x, (∀ m, k ≤ m → preparedQuery.batchExecuteStmt m threeRowsThenError = some (.ok x)) ∧
      x.ret.succeeded = true ∧ ReportsError byteEngine x.h [1, 2, 3] "Conversion Error" := by
  obtain ⟨k, x, hx, -, hrows⟩ := error_is_reported byteEngine ⟨_, rfl, rfl⟩
    (⟨1, rfl⟩ : BatchEnds threeRowsThenError preparedQuery _) rfl rfl rfl
  obtain rfl := Except.ok.inj (Option.some.inj ((hx (k + 1) (by omega)).symm.trans rfl))
  obtain ⟨hret, hreports⟩ := hrows (List.cons_ne_nil _ _)
  refine ⟨k, _, hx, hret, (hreports _ (.refl _)
    ⟨rfl, List.cons_ne_nil _ _, by decide, by decide, by decide⟩ fun b _ => ?_).2 rfl⟩
  exact (preparedBytes_converts b).of_same ⟨rfl, rfl, rfl, rfl⟩

/-- The same query under `SQL_RD_OFF`. -/
def unretrievedQuery : OdbcHandleStmt ℕ ℕ := { preparedBytes with retrieveData := false }

/-- Its execution succeeds, and every `SQLFetch` after it succeeds or finds no data, without a row
and without the error. -/
theorem error_is_unseen :
    ∃ x, unretrievedQuery.batchExecuteStmt 1 threeRowsThenError = some (.ok x) ∧
      x.ret.succeeded = true ∧ Bindings x.h 1 ∧
      (∀ b, BlockConverts byteEngine x.h b) ∧
      (∀ is, ∃ replies h', Run.outputs (fetchStep byteEngine) x.h is = .ok (replies, h') ∧
        replies.length = is.length ∧
        ∀ reply ∈ replies, (reply.ret = .success ∨ reply.ret = .noData) ∧ reply.rows = []) ∧
      ¬ReportsError byteEngine x.h [1, 2, 3] "Conversion Error" := by
  refine ⟨_, rfl, rfl, ⟨rfl, List.cons_ne_nil _ _, by decide, by decide, by decide⟩,
    fun b => (preparedBytes_converts b).of_same ⟨rfl, rfl, rfl, rfl⟩,
    outputs_of_skips ⟨⟨_, rfl, rfl⟩, rfl⟩, not_reportsError_of_skips ⟨⟨_, rfl, rfl⟩, rfl⟩ _⟩

end OdbcHandleStmt

end HaybarnOdbc
