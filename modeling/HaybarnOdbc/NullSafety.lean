import HaybarnOdbc.Batch

/-!
# No null pointer is followed

`Inv` is what the calls on a statement keep : an open handle has a result, a result has a
statement, and the fetcher of an open handle is in order (`FetcherOk`). Each function is
`Safe` from it : it follows no null `stmt`, `res` or `current_chunk`, and keeps it.

The source does not check everything this needs. `Orderly` is the condition on a call,
`null_safety` the result for every sequence of calls that meet it, and
`null_pointer_followed` three orders of calls that do not.
-/

namespace HaybarnOdbc

variable {ρ V : Type}

/-- The faults of following a null `stmt`, `res` or `current_chunk`. -/
def Fault.IsNull (e : Fault) : Prop :=
  e = .nullStmt ∨ e = .nullRes ∨ e = .nullChunk

theorem Fault.not_isNull_freedChunk : ¬Fault.freedChunk.IsNull := by simp [Fault.IsNull]

theorem Fault.not_isNull_outOfRange : ¬Fault.outOfRange.IsNull := by simp [Fault.IsNull]

theorem Fault.not_isNull_nullData : ¬Fault.nullData.IsNull := by simp [Fault.IsNull]

theorem Fault.not_isNull_thrown (msg : String) : ¬(Fault.thrown msg).IsNull := by
  simp [Fault.IsNull]

open Outcome (Safe)

namespace OdbcHandleStmt

/-- What the fetcher keeps : there is a current chunk as soon as one is stored, and without
one the position is in front of the first row. -/
structure FetcherOk (f : OdbcFetch ρ) : Prop where
  current : f.chunks ≠ [] → f.currentChunk.isSome
  chunkRow : f.currentChunk = none → f.chunkRow ≤ -1
  priorChunkRow : f.currentChunk = none → f.priorChunkRow ≤ -1

theorem FetcherOk.of_some {f : OdbcFetch ρ} (hf : f.currentChunk.isSome) : FetcherOk f where
  current _ := hf
  chunkRow h := by simp [h] at hf
  priorChunkRow h := by simp [h] at hf

/-- The cursor is in order after a move, and on a chunk if the move succeeded. -/
def MoveOk (p : SqlReturn × OdbcHandleStmt ρ V) : Prop :=
  FetcherOk p.2.odbcFetcher ∧ (p.1 = .success → p.2.odbcFetcher.currentChunk.isSome)

theorem safe_deref {f : OdbcFetch ρ} (hf : f.currentChunk.isSome) :
    Safe Fault.IsNull (fun _ => True) f.deref := by
  obtain ⟨c, hc⟩ := Option.isSome_iff_exists.1 hf
  unfold OdbcFetch.deref
  simp only [hc]
  split
  · trivial
  · exact Fault.not_isNull_freedChunk

theorem moveOk_setCurrentChunk {h : OdbcHandleStmt ρ V} (hf : FetcherOk h.odbcFetcher) :
    MoveOk h.setCurrentChunk := by
  by_cases he : h.odbcFetcher.chunks = []
  · rw [setCurrentChunk_of_empty he]
    exact ⟨hf, by simp⟩
  · obtain ⟨idx, c, -, hseat⟩ := setCurrentChunk_of_ne he
    rw [hseat]
    exact ⟨.of_some rfl, fun _ => rfl⟩

theorem safe_fetchNext {h : OdbcHandleStmt ρ V} (hf : FetcherOk h.odbcFetcher)
    (hres : h.res.isSome) : Safe Fault.IsNull MoveOk h.fetchNext := by
  cases hend : h.odbcFetcher.resultsetEnd with
  | true =>
    rw [fetchNext_of_end hend]
    exact moveOk_setCurrentChunk hf
  | false =>
    obtain ⟨res, hres⟩ := Option.isSome_iff_exists.1 hres
    cases hp : res.pending with
    | cons b bs =>
      obtain ⟨idx, c, -, hnext⟩ := fetchNext_taken hend hres hp
      rw [hnext]
      exact ⟨.of_some rfl, fun _ => rfl⟩
    | nil =>
      cases hfail : res.failure with
      | none =>
        rw [fetchNext_of_done hend hres hp hfail]
        exact ⟨⟨hf.current, hf.chunkRow, hf.priorChunkRow⟩, by simp⟩
      | some msg =>
        rw [fetchNext_of_failure hend hres hp hfail]
        exact ⟨⟨hf.current, hf.chunkRow, hf.priorChunkRow⟩, by simp [setDiagnosticRecord]⟩

/-- The chunk that `FetchNext` takes from the engine is the current one. -/
theorem fetchNext_of_pending_isSome {h h' : OdbcHandleStmt ρ V} {ret : SqlReturn}
    (hend : h.odbcFetcher.resultsetEnd = false) {res : QueryResult ρ} (hres : h.res = some res)
    (hp : res.pending ≠ []) (hx : h.fetchNext = .ok (ret, h')) :
    h'.odbcFetcher.currentChunk.isSome := by
  obtain ⟨b, bs, hp⟩ := List.exists_cons_of_ne_nil hp
  obtain ⟨idx, c, -, hnext⟩ := fetchNext_taken hend hres hp
  rw [hnext] at hx
  cases hx
  rfl

/-- `FetchNext` does not take the current chunk away. -/
theorem isSome_fetchNext {h h' : OdbcHandleStmt ρ V} {ret : SqlReturn}
    (hsome : h.odbcFetcher.currentChunk.isSome) (hx : h.fetchNext = .ok (ret, h')) :
    h'.odbcFetcher.currentChunk.isSome := by
  refine CursorSteps.invariant (P := fun h => h.odbcFetcher.currentChunk.isSome) ?_
    (steps_fetchNext hx) hsome
  intro h h' hsome hstep
  cases hstep with
  | seat | taken => rfl
  | place | reset | ended | failed | refused => exact hsome

theorem safe_setPriorCurrentChunk {h : OdbcHandleStmt ρ V} (hf : FetcherOk h.odbcFetcher)
    (hn : 1 ≤ h.rowsetSize) : Safe Fault.IsNull MoveOk h.setPriorCurrentChunk := by
  unfold setPriorCurrentChunk
  dsimp only
  split
  · next hlt =>
    split
    · refine ⟨⟨hf.current, fun _ => by simp, fun _ => ?_⟩, by simp⟩
      dsimp only
      omega
    · split
      · exact Fault.not_isNull_outOfRange
      · exact ⟨.of_some rfl, fun _ => rfl⟩
  · next hge =>
    have hsome : h.odbcFetcher.currentChunk.isSome := by
      by_contra hnone
      have := hf.priorChunkRow (by simpa using hnone)
      omega
    exact ⟨.of_some hsome, fun _ => hsome⟩

/-- There is a chunk for `SQL_FETCH_ABSOLUTE` : a current one, or one to take from the
engine. -/
def HasChunk (h : OdbcHandleStmt ρ V) : Prop :=
  h.odbcFetcher.currentChunk.isSome ∨
    (h.odbcFetcher.resultsetEnd = false ∧ ∃ res, h.res = some res ∧ res.pending ≠ [])

theorem safe_ensureChunk {h : OdbcHandleStmt ρ V} (hf : FetcherOk h.odbcFetcher)
    (hres : h.res.isSome) (hc : h.HasChunk) :
    Safe Fault.IsNull (fun p => p.2.odbcFetcher.currentChunk.isSome ∧ p.2.res.isSome)
      h.ensureChunk := by
  unfold ensureChunk
  split
  · next hnone =>
    refine (safe_fetchNext hf hres).imp fun p hp _ =>
      ⟨?_, by rw [(moved_fetchNext hp).res]; exact hres⟩
    rcases hc with hsome | ⟨hend, res, hres', hpending⟩
    · exact isSome_fetchNext hsome hp
    · exact fetchNext_of_pending_isSome hend hres' hpending hp
  · next hcur =>
    exact ⟨Option.isSome_iff_ne_none.2 (by simpa using mt Or.inl hcur), hres⟩

theorem safe_absoluteLoop (n : ℕ) {h : OdbcHandleStmt ρ V} (hf : FetcherOk h.odbcFetcher)
    (hres : h.res.isSome) (hc : h.HasChunk) (off : ℤ) :
    Safe Fault.IsNull MoveOk (absoluteLoop n h off) := by
  induction n generalizing h off with
  | zero => exact ⟨hf, by simp⟩
  | succ n ih =>
    unfold absoluteLoop
    refine (safe_ensureChunk hf hres hc).bind ?_
    rintro ⟨ret₁, h₁⟩ ⟨hsome, hres₁⟩
    refine (safe_deref hsome).bind fun cur _ => ?_
    have hf₁ : FetcherOk h₁.odbcFetcher := .of_some hsome
    have hset : ∀ row, MoveOk (.success, h₁.setRow row) :=
      fun row => ⟨.of_some hsome, fun _ => hsome⟩
    have hbefore : MoveOk h₁.beforeStart := by
      refine ⟨.of_some ?_, by simp [beforeStart]⟩
      cases hhead : h₁.odbcFetcher.chunks.head? <;> simp [beforeStart, hhead, hsome]
    dsimp only
    split
    · exact ⟨hf₁, by simp⟩
    split
    · exact hset _
    split
    · exact hbefore
    split
    · exact hset _
    split
    · exact hbefore
    split
    · exact hset _
    split
    · refine ((safe_fetchNext hf₁ hres₁).imp fun p hp hok =>
        And.intro hok (show p.2.res.isSome by rw [(moved_fetchNext hp).res]; exact hres₁)).bind ?_
      rintro ⟨ret₂, h₂⟩ ⟨⟨hf₂, hsome₂⟩, hres₂⟩
      dsimp only
      split
      · next hne => exact ⟨⟨hf₂.current, hf₂.chunkRow, hf₂.priorChunkRow⟩, fun h => absurd h hne⟩
      · next heq =>
        have hsome₂ := hsome₂ (not_not.1 heq)
        exact (safe_deref hsome₂).bind fun next _ => ih hf₂ hres₂ (.inl hsome₂) _
    · exact ⟨hf₁, by simp⟩

theorem safe_setFirstCurrentChunk {h : OdbcHandleStmt ρ V} (hf : FetcherOk h.odbcFetcher)
    (hres : h.res.isSome) : Safe Fault.IsNull MoveOk h.setFirstCurrentChunk := by
  have hbefore : FetcherOk h.beforeStart.2.odbcFetcher := by
    refine ⟨fun hne => ?_, by simp [beforeStart], by simp [beforeStart]⟩
    have hsome := hf.current hne
    cases hhead : h.odbcFetcher.chunks.head? <;> simp [beforeStart, hhead, hsome]
  unfold setFirstCurrentChunk
  dsimp only
  split
  · exact safe_fetchNext hbefore hres
  · next c hc => exact ⟨hbefore, fun _ => by simp [hc]⟩

/-- A move of the cursor, other than an orientation without a case of its own. -/
theorem safe_fetchNextChunk {h : OdbcHandleStmt ρ V} (orientation : FetchOrientation) (off : ℤ)
    (hf : FetcherOk h.odbcFetcher) (hn : 1 ≤ h.rowsetSize) (hres : h.res.isSome)
    (hother : orientation ≠ .other)
    (habs : h.odbcFetcher.cursorType ≠ .forwardOnly → orientation = .absolute → h.HasChunk) :
    Safe Fault.IsNull MoveOk (h.fetchNextChunk orientation off) := by
  unfold fetchNextChunk
  split
  · exact ⟨⟨hf.current, hf.chunkRow, hf.priorChunkRow⟩, by simp [setDiagnosticRecord]⟩
  · next hcursor =>
    cases orientation with
    | next =>
      have hf' : FetcherOk { h.odbcFetcher with priorChunkRow := h.odbcFetcher.chunkRow } :=
        ⟨hf.current, hf.chunkRow, hf.chunkRow⟩
      dsimp only
      split
      · split
        · exact ⟨hf', by simp⟩
        · exact safe_fetchNext hf' hres
      · next hreq =>
        -- a chunk is stored, so there is a current one
        have hsome : h.odbcFetcher.currentChunk.isSome := by
          refine hf.current fun hnil => hreq ?_
          simp [OdbcFetch.requireFetch, hnil]
        exact ⟨.of_some hsome, fun _ => hsome⟩
    | prior => exact safe_setPriorCurrentChunk hf hn
    | first => exact safe_setFirstCurrentChunk hf hres
    | absolute =>
      have hscroll : h.odbcFetcher.cursorType ≠ .forwardOnly := fun hfwd => hcursor ⟨hfwd, by simp⟩
      exact safe_absoluteLoop _ hf hres (habs hscroll rfl) _
    | other => exact absurd rfl hother

/-! ## Reading and delivering -/

theorem safe_getVariableValue (h : OdbcHandleStmt ρ V) (colIdx : ℕ) (target : Addr)
    (bufferLength : ℤ) (strLenOrInd : Addr) (val : List UInt8) (charSize : ℕ)
    (nullTerminate : Bool) :
    Safe Fault.IsNull (fun _ => True)
      (h.getVariableValue colIdx target bufferLength strLenOrInd val charSize nullTerminate) := by
  unfold getVariableValue
  dsimp only
  repeat' split
  all_goals first
    | trivial
    | exact Fault.not_isNull_outOfRange

/-- Reading a cell checks for a current chunk. -/
theorem safe_getDataStmtResult (E : Engine ρ V) (h : OdbcHandleStmt ρ V) (num : ℕ) (t : CType)
    (target : Addr) (bufferLength : ℤ) (strLenOrInd : Addr) :
    Safe Fault.IsNull (fun got => SameCursor h got.h)
      (h.getDataStmtResult E num t target bufferLength strLenOrInd) := by
  have hvalue : Safe Fault.IsNull (fun _ => True) (h.getValue E (num - 1)) := by
    unfold getValue
    split
    · trivial
    · next c hc =>
      refine (safe_deref (by simp [hc])).bind fun c _ => ?_
      split
      · exact Fault.not_isNull_outOfRange
      · split
        · exact Fault.not_isNull_outOfRange
        · trivial
  suffices hsafe : Safe Fault.IsNull (fun _ => True)
      (h.getDataStmtResult E num t target bufferLength strLenOrInd) from
    hsafe.imp fun got hgot _ => sameCursor_getDataStmtResult hgot
  unfold getDataStmtResult
  split
  · trivial
  · refine hvalue.bind fun val _ => ?_
    dsimp only
    split
    · split <;> trivial
    · repeat' split
      all_goals first
        | trivial
        | exact safe_getVariableValue _ _ _ _ _ _ _ _
        | exact Fault.not_isNull_thrown _

/-- The state a delivery starts from : a statement, and a current chunk. -/
def ReadyToDeliver (h : OdbcHandleStmt ρ V) : Prop :=
  h.stmt.isSome ∧ h.odbcFetcher.currentChunk.isSome

theorem ReadyToDeliver.of_sameChunk {h h' : OdbcHandleStmt ρ V} (hr : h.ReadyToDeliver)
    (hh : SameChunk h h') : h'.ReadyToDeliver := by
  obtain ⟨row, count, last, diag, rfl⟩ := hh
  exact hr

theorem safe_deliverRow (E : Engine ρ V) (place : CellPlace) (rowIdx : ℕ) {d : Delivery ρ V}
    (hr : d.h.ReadyToDeliver) :
    Safe Fault.IsNull (fun d' : Delivery ρ V => d'.h.ReadyToDeliver)
    (deliverRow E place d rowIdx) := by
  unfold deliverRow
  refine (safe_deref hr.2).bind fun c _ => ?_
  obtain ⟨stmt, hstmt⟩ := Option.isSome_iff_exists.1 hr.1
  have hcount : Safe Fault.IsNull (fun _ => True)
      ({ d.h with odbcFetcher.chunkRow := d.h.odbcFetcher.chunkRow + 1 }).columnCount := by
    unfold columnCount
    simp only [hstmt]
    split
    · exact Fault.not_isNull_nullData
    · trivial
  refine hcount.bind fun count _ => ?_
  refine Safe.foldlM (I := fun d' : Delivery ρ V => d'.h.ReadyToDeliver) ?_ hr
  intro d₁ col hd₁
  unfold deliverCell
  split
  · exact Fault.not_isNull_outOfRange
  · split
    · refine (safe_getDataStmtResult E _ _ _ _ _ _).bind fun got hgot => ?_
      exact hd₁.of_sameChunk hgot.sameChunk
    · exact hd₁

theorem safe_increaseRowCount {h : OdbcHandleStmt ρ V}
    (hsome : h.odbcFetcher.currentChunk.isSome) :
    Safe Fault.IsNull (fun _ => True) h.increaseRowCount := by
  refine (safe_deref hsome).bind fun c _ => ?_
  dsimp only
  split <;> trivial

theorem safe_deliver (E : Engine ρ V) {h : OdbcHandleStmt ρ V} (hr : h.ReadyToDeliver) :
    Safe Fault.IsNull (fun d => SameChunk h d.h) (h.deliver E) := by
  suffices hsafe : Safe Fault.IsNull (fun _ => True) (h.deliver E) from
    hsafe.imp fun d hd _ => sameChunk_deliver hd
  have hrows : ∀ place, Safe Fault.IsNull (fun d : Delivery ρ V => d.h.ReadyToDeliver)
      (h.deliverRows E place) := by
    intro place
    refine (safe_deref hr.2).bind fun c _ => ?_
    exact Safe.foldlM (I := fun d : Delivery ρ V => d.h.ReadyToDeliver)
      (fun d rowIdx hd => safe_deliverRow E place rowIdx hd) hr
  by_cases hb : h.boundCols = []
  · unfold deliver fetchUnbound
    rw [if_pos (by simp [hb])]
    refine (safe_deref hr.2).bind fun c _ => ?_
    refine (safe_increaseRowCount ?_).bind fun _ _ => ?_
    · exact hr.2
    · trivial
  · rw [deliver_of_bound hb]
    have hbound : Safe Fault.IsNull (fun d : Delivery ρ V => d.h.ReadyToDeliver) (h.bound E) := by
      unfold bound
      split
      · refine (safe_deref hr.2).bind fun c _ => (hrows _).bind fun d hd => ?_
        exact (congrArg ReadyToDeliver (setRowsFetched_h d _)).mpr hd
      · refine (safe_deref hr.2).bind fun c _ => (hrows _).bind fun d hd => ?_
        exact (congrArg ReadyToDeliver (setRowsFetched_h d _)).mpr hd
    refine hbound.bind fun d hd => ?_
    split
    · trivial
    · exact (safe_increaseRowCount hd.2).bind fun _ _ => trivial

/-! ## The calls -/

/-- What holds between the calls. -/
structure Inv (h : OdbcHandleStmt ρ V) : Prop where
  opened : h.opened = true → h.res.isSome
  res : h.res.isSome → h.stmt.isSome
  fetcher : h.opened = true → FetcherOk h.odbcFetcher
  rowset : 1 ≤ h.rowsetSize

theorem Inv.of_moved {h h' : OdbcHandleStmt ρ V} (hi : h.Inv) (hm : Moved h h')
    (hf : FetcherOk h'.odbcFetcher) : h'.Inv where
  opened ho := by rw [hm.res]; exact hi.opened (hm.opened ho)
  res hr := by rw [hm.stmt]; exact hi.res (hm.res ▸ hr)
  fetcher _ := hf
  rowset := by simpa only [rowsetSize, hm.rowDesc] using hi.rowset

theorem Inv.of_sameChunk {h h' : OdbcHandleStmt ρ V} (hi : h.Inv) (hh : SameChunk h h')
    (hsome : h.odbcFetcher.currentChunk.isSome) : h'.Inv := by
  obtain ⟨row, count, last, diag, rfl⟩ := hh
  exact ⟨hi.opened, hi.res, fun _ => .of_some hsome, hi.rowset⟩

theorem safe_fetchStmtResult (E : Engine ρ V) {h : OdbcHandleStmt ρ V}
    {orientation : FetchOrientation} {off : ℤ} (hi : h.Inv) (hother : orientation ≠ .other)
    (habs : h.opened = true → h.odbcFetcher.cursorType ≠ .forwardOnly → orientation = .absolute →
      h.HasChunk) :
    Safe Fault.IsNull (fun d => Inv d.h) (h.fetchStmtResult E orientation off) := by
  unfold fetchStmtResult
  split
  · exact hi
  · next hopen =>
    have hopen : h.opened = true := not_not.1 hopen
    have hmove := (safe_fetchNextChunk orientation off (hi.fetcher hopen) hi.rowset
      (hi.opened hopen)
      hother (habs hopen)).imp fun p hp hok =>
        And.intro hok (hi.of_moved (moved_fetchNextChunk hp) hok.1)
    have hstmt : ∀ p, h.fetchNextChunk orientation off = .ok p → p.2.stmt.isSome := by
      intro p hp
      rw [(moved_fetchNextChunk hp).stmt]
      exact hi.res (hi.opened hopen)
    unfold fetch
    refine (hmove.imp fun p hp hok => And.intro hok (hstmt p hp)).bind ?_
    rintro ⟨ret, h₁⟩ ⟨⟨hok, hi₁⟩, hstmt₁⟩
    dsimp only
    split
    · have hsome := hok.2 rfl
      exact (safe_deliver E ⟨hstmt₁, hsome⟩).imp fun d _ hd => hi₁.of_sameChunk hd hsome
    · exact hi₁
    · exact hi₁

/-- What an execution leaves : the statement, and an open result exactly if it succeeded. -/
theorem SingleExecuted.inv {result : QueryResult ρ} {h : OdbcHandleStmt ρ V} {x : Executed ρ V}
    (hx : SingleExecuted result h x) (hstmt : h.stmt.isSome) (hn : 1 ≤ h.rowsetSize) :
    x.h.Inv ∧ x.h.stmt = h.stmt ∧ (x.ret.succeeded → x.h.opened = true) := by
  have hf : FetcherOk h.odbcFetcher.clearChunks :=
    ⟨by simp [OdbcFetch.clearChunks], by simp [OdbcFetch.clearChunks],
      by simp [OdbcFetch.clearChunks]⟩
  cases hx with
  | unread hret =>
    refine ⟨⟨by simp [started], by simp [started], by simp [started], hn⟩, rfl, ?_⟩
    rcases hret with rfl | rfl <;> simp [SqlReturn.succeeded]
  | failed =>
    exact ⟨⟨by simp [started], fun _ => hstmt, by simp [started], hn⟩,
      rfl, by simp [SqlReturn.succeeded]⟩
  | once => exact ⟨⟨by simp, fun _ => hstmt, fun _ => hf, hn⟩, rfl, by simp⟩
  | set => exact ⟨⟨by simp, fun _ => hstmt, fun _ => hf, hn⟩, rfl, by simp⟩

theorem safe_readRecords (source : ParamSource V) (recs : List ℕ) (values : List V)
    (h : OdbcHandleStmt ρ V) (log : List (ExecEvent V)) :
    Safe Fault.IsNull (fun _ => True) (readRecords source recs values h log) := by
  induction recs generalizing values h log with
  | nil => trivial
  | cons recIdx rest ih =>
    unfold readRecords
    dsimp only
    split
    · trivial
    · split
      · trivial
      · split
        · exact Fault.not_isNull_outOfRange
        · exact ih _ _ _

theorem safe_singleExecuteStmt (source : ParamSource V) (result : QueryResult ρ)
    {h : OdbcHandleStmt ρ V} (hstmt : h.stmt.isSome) (hn : 1 ≤ h.rowsetSize) :
    Safe Fault.IsNull
      (fun x => Inv x.h ∧ x.h.stmt = h.stmt ∧ (x.ret.succeeded → x.h.opened = true))
      (h.singleExecuteStmt source result) := by
  suffices hsafe : Safe Fault.IsNull (fun _ => True) (h.singleExecuteStmt source result) from
    hsafe.imp fun x hx _ => (singleExecuteStmt_cases hx).inv hstmt hn
  have hread : Safe Fault.IsNull (fun p : List V × Executed ρ V => p.2.h.stmt.isSome)
      (h.started.getParamValues source) := by
    suffices hread : Safe Fault.IsNull (fun _ => True) (h.started.getParamValues source) from
      hread.imp fun ⟨vs, x⟩ hp _ => by
        have hx := getParamValues_cases hp
        cases hx <;> exact hstmt
    unfold getParamValues
    split
    · trivial
    · refine (safe_readRecords source _ _ _ _).bind fun p _ => ?_
      dsimp only
      split <;> trivial
  unfold singleExecuteStmt
  refine hread.bind ?_
  rintro ⟨values, y⟩ hsome
  obtain ⟨stmt, hy⟩ := Option.isSome_iff_exists.1 hsome
  have hlog : ∃ log, (if h.rowsFetchedPtr ≠ 0 then { y with log := .rowsFetchedReset :: y.log }
      else y) = ⟨y.ret, y.h, log⟩ := by split <;> exact ⟨_, rfl⟩
  obtain ⟨log, hlog⟩ := hlog
  dsimp only at hy ⊢
  rw [hlog]
  dsimp only
  rw [hy]
  split
  · trivial
  · dsimp only
    split
    · trivial
    · split <;> trivial

theorem safe_batchFinish {ret : SqlReturn} {h : OdbcHandleStmt ρ V} {log : List (ExecEvent V)}
    (hi : h.Inv) (hstmt : h.stmt.isSome) (hopen : ret.succeeded → h.opened = true) :
    Safe Fault.IsNull (fun x => Inv x.h) (batchFinish ret h log) := by
  unfold batchFinish
  split
  · exact hi
  · next hsucc =>
    have hopen := hopen (not_not.1 hsucc)
    have hf := hi.fetcher hopen
    have hfirst : Safe Fault.IsNull
        (fun p : SqlReturn × OdbcHandleStmt ρ V => Inv p.2 ∧ p.2.stmt.isSome ∧ p.2.res.isSome)
        h.fetchFirst := by
      suffices hsafe : Safe Fault.IsNull (fun p => FetcherOk p.2.odbcFetcher) h.fetchFirst from
        hsafe.imp fun p hp hok => by
          have hm := moved_fetchFirst hp
          exact ⟨hi.of_moved hm hok, by rw [hm.stmt]; exact hstmt,
            by rw [hm.res]; exact hi.opened hopen⟩
      unfold fetchFirst
      have hmove := safe_fetchNextChunk (h := { h with odbcFetcher.cursorType := .dynamic })
        .first 0 ⟨hf.current, hf.chunkRow, hf.priorChunkRow⟩ hi.rowset
        (hi.opened hopen) (by simp) (by simp)
      refine hmove.bind fun p hp => ?_
      exact ⟨hp.1.current, hp.1.chunkRow, hp.1.priorChunkRow⟩
    refine hfirst.bind ?_
    rintro ⟨fetchRet, h₁⟩ ⟨hi₁, hstmt₁, hres₁⟩
    obtain ⟨stmt, hstmt₁⟩ := Option.isSome_iff_exists.1 hstmt₁
    obtain ⟨res, hres₁⟩ := Option.isSome_iff_exists.1 hres₁
    dsimp only at hi₁ hstmt₁ hres₁ ⊢
    split
    · exact hi₁
    · simp only [hstmt₁, hres₁]
      split
      · exact hi₁
      · exact ⟨fun _ => rfl, fun _ => rfl, hi₁.fetcher, hi₁.rowset⟩

/-- A batch of a prepared statement, whatever the statement was open for before. -/
theorem safe_batchExecuteStmt {n : ℕ} {a : ExecAnswers ρ V} {h : OdbcHandleStmt ρ V}
    {y : Except Fault (Executed ρ V)} (hstmt : h.stmt.isSome) (hn : 1 ≤ h.rowsetSize)
    (hy : h.batchExecuteStmt n a = some y) : Safe Fault.IsNull (fun x => Inv x.h) y := by
  obtain ⟨x, hrun, rfl⟩ := Option.map_eq_some_iff.1 hy
  have hbody : ∀ b : Batch ρ V, b.h.stmt.isSome ∧ 1 ≤ b.h.rowsetSize →
      Safe Fault.IsNull (fun p => Inv p.2.h ∧ p.2.h.stmt.isSome ∧
        (p.1.succeeded → p.2.h.opened = true)) (batchBody a b) := by
    rintro b ⟨hstmt, hn⟩
    refine (safe_singleExecuteStmt a.source _ hstmt hn).bind ?_
    rintro x ⟨hi, hstmt', hopen⟩
    exact ⟨hi, by rw [hstmt']; exact hstmt, hopen⟩
  have hloop : Safe Fault.IsNull (fun p : SqlReturn × Batch ρ V => Inv p.2.h ∧ p.2.h.stmt.isSome ∧
      (p.1.succeeded → p.2.h.opened = true)) x := by
    refine DoWhile.run_invariant (batchBody a) (· = .stillExecuting)
      (fun b => b.h.stmt.isSome ∧ 1 ≤ b.h.rowsetSize) _ ?_ ?_ ?_ ⟨hstmt, hn⟩ hrun
    · intro b e hb hbe
      have hsafe := hbody b hb
      rw [hbe] at hsafe
      exact hsafe
    · intro b r b' hb hbr _
      have hsafe := hbody b hb
      rw [hbr] at hsafe
      exact ⟨hsafe.2.1, hsafe.1.rowset⟩
    · intro b r b' hb hbr _
      have hsafe := hbody b hb
      rw [hbr] at hsafe
      exact hsafe
  refine hloop.bind ?_
  rintro ⟨ret, b⟩ ⟨hi, hstmt, hopen⟩
  exact safe_batchFinish hi hstmt hopen

theorem finalizeStmt_stmt (h : OdbcHandleStmt ρ V) (p : PreparedStatement) :
    (h.finalizeStmt p).2.stmt.isSome ∧ (h.finalizeStmt p).2.rowsetSize = h.rowsetSize ∧
      (h.finalizeStmt p).2.res = h.res ∧ (h.finalizeStmt p).2.opened = h.opened ∧
      (h.finalizeStmt p).2.odbcFetcher = h.odbcFetcher := by
  unfold finalizeStmt
  cases hp : p.error with
  | some msg => exact ⟨rfl, rfl, rfl, rfl, rfl⟩
  | none => by_cases hb : p.boundAllParameters <;> simp [hb, setDiagnosticRecord, rowsetSize]

theorem Inv.finalizeStmt {h : OdbcHandleStmt ρ V} (hi : h.Inv) (p : PreparedStatement) :
    (h.finalizeStmt p).2.Inv := by
  obtain ⟨hstmt, hn, hres, hopen, hfetcher⟩ := finalizeStmt_stmt h p
  exact ⟨by rw [hopen, hres]; exact hi.opened, fun _ => hstmt,
    by rw [hopen, hfetcher]; exact hi.fetcher, hn ▸ hi.rowset⟩

/-- The loop over the statements of a text. It may start without the invariant if the first
statement prepares, because executing it opens the handle anew. -/
theorem safe_execDirectLoop {n : ℕ} {statements : List (StatementAnswer ρ V)} {ret : SqlReturn}
    {info : Bool} {h : OdbcHandleStmt ρ V} {log : List (ExecEvent V)}
    {y : Except Fault (Executed ρ V)}
    (hpre : h.Inv ∨ ((∃ s rest, statements = s :: rest ∧ s.prepared.error = none) ∧
    1 ≤ h.rowsetSize))
    (hy : execDirectLoop n statements ret info h log = some y) :
    Safe Fault.IsNull (fun x => Inv x.h) y := by
  induction statements generalizing ret info h log with
  | nil =>
    cases hy
    refine hpre.resolve_right ?_
    rintro ⟨⟨s, rest, hnil, -⟩, -⟩
    cases hnil
  | cons s rest ih =>
    obtain ⟨hstmt, hn, -⟩ := finalizeStmt_stmt h s.prepared
    have hrow : 1 ≤ h.rowsetSize := by
      rcases hpre with hi | ⟨-, hn⟩
      · exact hi.rowset
      · exact hn
    by_cases hstop : s.prepared.error.isSome ∨ ¬(h.finalizeStmt s.prepared).1.succeeded
    · rw [execDirectLoop] at hy
      simp only [hstop, if_true] at hy
      cases hy
      rcases hpre with hi | ⟨⟨s', rest', heq, hprep⟩, -⟩
      · exact hi.finalizeStmt s.prepared
      · -- a statement that prepares does not stop the loop
        cases heq
        exfalso
        rcases hstop with herr | hfail
        · simp [hprep] at herr
        · refine hfail ?_
          unfold finalizeStmt
          simp only [hprep]
          by_cases hb : s.prepared.boundAllParameters <;>
            simp [hb, setDiagnosticRecord, SqlReturn.succeeded]
    · generalize hfin : h.finalizeStmt s.prepared = fin at hstmt hn hstop
      obtain ⟨ret₁, h₁⟩ := fin
      rw [execDirectLoop_cons n rest ret info log hfin hstop] at hy
      cases hbatch : h₁.batchExecuteStmt n s.exec with
      | none => simp [hbatch] at hy
      | some x =>
        have hsafe := safe_batchExecuteStmt hstmt (by rw [hn]; exact hrow) hbatch
        cases x with
        | error e =>
          simp only [hbatch] at hy
          cases hy
          exact hsafe
        | ok x =>
          simp only [hbatch] at hy
          split at hy
          · cases hy
            exact hsafe
          · exact ih (.inl hsafe) hy

theorem Inv.of_diag {h : OdbcHandleStmt ρ V} (hi : h.Inv) (diag : List DiagRecord) :
    Inv { h with diag := diag } :=
  ⟨hi.opened, hi.res, hi.fetcher, hi.rowset⟩

theorem Inv.convertHSTMT {h : OdbcHandleStmt ρ V} (hi : h.Inv) : h.convertHSTMT.Inv :=
  hi.of_diag []

theorem safe_executeBeforeFetch (source : ParamSource V) (result : QueryResult ρ)
    {h : OdbcHandleStmt ρ V} (hi : h.Inv) :
    Safe Fault.IsNull (fun x => Inv x.h) (h.executeBeforeFetch source result) := by
  unfold executeBeforeFetch
  rcases h.convertHSTMTPrepared_cases with ⟨stmt, hstmt, -, hconv⟩ | ⟨diag, hconv⟩
  · rw [hconv]
    dsimp only
    split
    · exact hi.convertHSTMT
    · split
      · have hsome : h.convertHSTMT.stmt.isSome := Option.isSome_iff_exists.2 ⟨stmt, hstmt⟩
        exact (safe_singleExecuteStmt source result hsome hi.rowset).bind fun x hx => hx.1
      · exact hi.convertHSTMT
  · rw [hconv]
    exact hi.of_diag diag

theorem safe_sqlFetch (E : Engine ρ V) (source : ParamSource V) (result : QueryResult ρ)
    {h : OdbcHandleStmt ρ V} (hi : h.Inv) :
    Safe Fault.IsNull (fun r => Inv r.h) (h.sqlFetch E source result) := by
  unfold sqlFetch
  rcases h.convertHSTMTPrepared_cases with ⟨stmt, hstmt, -, hconv⟩ | ⟨diag, hconv⟩
  · rw [hconv]
    dsimp only
    split
    · refine (safe_executeBeforeFetch source result hi.convertHSTMT).bind fun x hx => ?_
      split
      · exact hx
      · refine (safe_fetchStmtResult E hx (by simp) (by simp)).bind fun d hd => ?_
        exact hd
    · exact hi.convertHSTMT
  · rw [hconv]
    exact hi.of_diag diag

/-- With the invariant, `ConvertHSTMTResult` has a statement to read the error of. -/
theorem Inv.convertHSTMTResult_cases {h : OdbcHandleStmt ρ V} (hi : h.Inv) :
    h.convertHSTMTResult = .ok (.success, h.convertHSTMT) ∨
    ∃ diag, h.convertHSTMTResult = .ok (.error, { h with diag := diag }) := by
  rcases h.convertHSTMTResult_cases with ⟨res, -, -, hconv⟩ | hconv | ⟨hres, hstmt, -⟩
  · exact .inl hconv
  · exact .inr hconv
  · have hsome := hi.res hres
    rw [hstmt] at hsome
    cases hsome

theorem safe_sqlFetchScroll (E : Engine ρ V) {orientation : FetchOrientation} {off : ℤ}
    {h : OdbcHandleStmt ρ V} (hi : h.Inv)
    (habs : h.opened = true → h.odbcFetcher.cursorType ≠ .forwardOnly → orientation = .absolute →
      h.HasChunk) :
    Safe Fault.IsNull (fun r => Inv r.h) (h.sqlFetchScroll E orientation off) := by
  unfold sqlFetchScroll
  split
  · exact hi
  · next hother =>
    rcases hi.convertHSTMTResult_cases with hconv | ⟨diag, hconv⟩
    · rw [hconv]
      refine (safe_fetchStmtResult E hi.convertHSTMT hother habs).bind fun d hd => ?_
      exact hd
    · rw [hconv]
      exact hi.of_diag diag

theorem safe_sqlGetData (E : Engine ρ V) (num : ℕ) (t : CType) (target : Addr) (len : ℤ)
    (ind : Addr)
    {h : OdbcHandleStmt ρ V} (hi : h.Inv) :
    Safe Fault.IsNull (fun r => Inv r.h) (h.sqlGetData E num t target len ind) := by
  unfold sqlGetData
  rcases hi.convertHSTMTResult_cases with hconv | ⟨diag, hconv⟩
  · rw [hconv]
    refine (safe_getDataStmtResult E h.convertHSTMT num t target len ind).bind fun got hgot => ?_
    obtain ⟨last, diag, hh⟩ := hgot
    refine ⟨?_, ?_, ?_, ?_⟩ <;> dsimp only <;> rw [hh]
    · exact hi.opened
    · exact hi.res
    · exact fun ho => ⟨(hi.fetcher ho).current, (hi.fetcher ho).chunkRow,
        (hi.fetcher ho).priorChunkRow⟩
    · exact hi.rowset
  · rw [hconv]
    exact hi.of_diag diag

theorem safe_sqlMoreResults (source : ParamSource V) (result : QueryResult ρ)
    {h : OdbcHandleStmt ρ V} (hi : h.Inv)
    (hstmt : h.stmt.isSome ∨ h.paramDesc.hasParamSetToProcess = false) :
    Safe Fault.IsNull (fun r => Inv r.h) (h.sqlMoreResults source result) := by
  unfold sqlMoreResults
  dsimp only
  split
  · exact hi.convertHSTMT
  · next hparams =>
    have hsome : h.convertHSTMT.stmt.isSome := by
      refine hstmt.resolve_right fun hnone => hparams ?_
      simpa [OdbcHandleStmt.convertHSTMT] using hnone
    exact (safe_singleExecuteStmt source result hsome hi.rowset).bind fun x hx => hx.1

theorem safe_sqlRowCount (ptr : Addr) {h : OdbcHandleStmt ρ V} (hi : h.Inv) :
    Safe Fault.IsNull (fun r => Inv r.h) (h.sqlRowCount ptr) := by
  unfold sqlRowCount
  rcases h.convertHSTMTResult_cases with ⟨res, hres, -, hconv⟩ | ⟨diag, hconv⟩ | ⟨hres, hstmt, -⟩
  · rw [hconv]
    simp only [bind, Except.bind]
    split
    · exact hi.convertHSTMT
    · have hcount : Safe Fault.IsNull (fun _ => True) h.convertHSTMT.getRowCount := by
        unfold getRowCount
        split
        · trivial
        · next c hc => exact (safe_deref (by simp [hc])).bind fun c _ => trivial
      refine hcount.bind fun count _ => ?_
      obtain ⟨stmt, hstmt⟩ := Option.isSome_iff_exists.1 (hi.res (by simp [hres]))
      have hstmt' : h.convertHSTMT.stmt = some stmt := hstmt
      rw [hstmt']
      dsimp only
      split
      · exact Fault.not_isNull_nullData
      · exact hi.convertHSTMT
  · rw [hconv]
    exact hi.of_diag diag
  · have hsome := hi.res hres
    rw [hstmt] at hsome
    cases hsome

/-- The condition on a call. A statement is prepared only while no result is open; a text is
executed only then, or if its first statement prepares; there is a statement to execute;
and there is a chunk to be found by `SQL_FETCH_ABSOLUTE`. -/
def Orderly (h : OdbcHandleStmt ρ V) : Call ρ V → Prop
  | .prepare _ => h.opened = false
  | .execDirect statements => h.opened = false ∨
      ∃ s rest, statements = .ok (s :: rest) ∧ s.prepared.error = none
  | .execute _ => h.stmt.isSome
  | .moreResults _ _ => h.stmt.isSome ∨ h.paramDesc.hasParamSetToProcess = false
  | .fetchScroll orientation _ => h.opened = true → h.odbcFetcher.cursorType ≠ .forwardOnly →
      orientation = .absolute → h.HasChunk
  | _ => True

theorem Inv.prepareQuery {h : OdbcHandleStmt ρ V} (hi : h.Inv) (hopen : h.opened = false) :
    h.prepareQuery.Inv where
  opened ho := by simp [OdbcHandleStmt.prepareQuery, hopen] at ho
  res hr := by simp [OdbcHandleStmt.prepareQuery] at hr
  fetcher ho := by simp [OdbcHandleStmt.prepareQuery, hopen] at ho
  rowset := hi.rowset

theorem safe_execDirectStmt {n : ℕ} {statements : Except String (List (StatementAnswer ρ V))}
    {h : OdbcHandleStmt ρ V} {y : Except Fault (Executed ρ V)} (hi : h.Inv)
    (hpre : h.opened = false ∨ ∃ s rest, statements = .ok (s :: rest) ∧ s.prepared.error = none)
    (hy : h.execDirectStmt n statements = some y) : Safe Fault.IsNull (fun x => Inv x.h) y := by
  cases statements with
  | error msg =>
    cases hy
    have hopen : h.opened = false := by
      refine hpre.resolve_right ?_
      rintro ⟨s, rest, hcontra, -⟩
      cases hcontra
    exact (hi.prepareQuery hopen).of_diag _
  | ok statements =>
    refine safe_execDirectLoop ?_ hy
    rcases hpre with hopen | ⟨s, rest, heq, herr⟩
    · exact .inl (hi.prepareQuery hopen)
    · exact .inr ⟨⟨s, rest, Except.ok.inj heq, herr⟩, hi.rowset⟩

/-- One call that meets its condition follows no null pointer and keeps the invariant. -/
theorem safe_perform (E : Engine ρ V) {n : ℕ} {h : OdbcHandleStmt ρ V} {c : Call ρ V}
    {x : Except Fault (Reply ρ V)} (hi : h.Inv) (hc : h.Orderly c) (hx : h.perform E n c = some x) :
    Safe Fault.IsNull (fun r => Inv r.h) x := by
  cases c with
  | prepare p =>
    cases hx
    exact (hi.convertHSTMT.prepareQuery hc).finalizeStmt p
  | execute a =>
    obtain ⟨y, hy, rfl⟩ := Option.map_eq_some_iff.1 hx
    exact (safe_batchExecuteStmt (h := h.convertHSTMT) hc hi.rowset hy).map fun x hx => hx
  | execDirect statements =>
    obtain ⟨y, hy, rfl⟩ := Option.map_eq_some_iff.1 hx
    exact (safe_execDirectStmt hi.convertHSTMT hc hy).map fun x hx => hx
  | bindParameter args =>
    cases hx
    show Inv (h.convertHSTMT.bindParameterStmt args).2
    unfold bindParameterStmt
    repeat' split
    all_goals exact ⟨hi.opened, hi.res, hi.fetcher, hi.rowset⟩
  | fetch source result =>
    cases hx
    exact safe_sqlFetch E source result hi
  | fetchScroll orientation off =>
    cases hx
    exact safe_sqlFetchScroll E hi hc
  | moreResults source result =>
    cases hx
    exact safe_sqlMoreResults source result hi hc
  | rowCount ptr =>
    cases hx
    exact safe_sqlRowCount ptr hi
  | getData num t target len ind =>
    cases hx
    exact safe_sqlGetData E num t target len ind hi
  | close =>
    cases hx
    exact ⟨by simp [close], by simp [close], by simp [close], hi.rowset⟩
  | setCursorType t =>
    cases hx
    refine ⟨hi.opened, hi.res, fun ho => ?_, hi.rowset⟩
    exact ⟨(hi.fetcher ho).current, (hi.fetcher ho).chunkRow, (hi.fetcher ho).priorChunkRow⟩
  | setRowArraySize k =>
    cases hx
    refine ⟨hi.opened, hi.res, hi.fetcher, ?_⟩
    have := hi.rowset
    simp only [rowsetSize] at this ⊢
    split <;> omega
  | setRowBindType size =>
    simp only [perform] at hx
    split at hx
    · cases hx
      exact hi.convertHSTMT
    · cases hx
      exact ⟨hi.opened, hi.res, hi.fetcher, hi.rowset⟩
  | _ =>
    cases hx
    exact ⟨hi.opened, hi.res, hi.fetcher, hi.rowset⟩

/-- A call follows no null `stmt`, `res` or `current_chunk`, and after it an open handle has
a result and a statement. -/
def NullSafe (E : Engine ρ V) (h : OdbcHandleStmt ρ V) (c : Call ρ V) : Prop :=
  ∀ n x, h.perform E n c = some x →
    Safe Fault.IsNull (fun r => r.h.opened = true → r.h.res.isSome ∧ r.h.stmt.isSome) x

/-- On a handle whose memory held no open flag, every sequence of calls that meet their
conditions follows no null pointer, and after every call an open handle has a result and
a statement. -/
theorem null_safety (E : Engine ρ V) (junk : OdbcHandleStmt ρ V) (hjunk : junk.opened = false)
    (calls : List (Call ρ V)) (hcalls : Run.Along (Step E) Orderly (alloc junk) calls) :
    Run.Along (Step E) (NullSafe E) (alloc junk) calls := by
  have hstart : (alloc junk).Inv := by
    refine ⟨fun ho => ?_, by simp [alloc], fun ho => ?_, Nat.le_refl 1⟩
    · exact absurd (hjunk.symm.trans ho) (by simp)
    · exact absurd (hjunk.symm.trans ho) (by simp)
  refine hcalls.strengthen Inv ?_ ?_ hstart
  · rintro h c h' hi hc ⟨n, r, hr, rfl⟩
    exact safe_perform E hi hc hr
  · intro h c hi hc n x hx
    exact (safe_perform E hi hc hx).imp fun r _ hir ho => ⟨hir.opened ho, hir.res (hir.opened ho)⟩

/-- A query is executed, its only row is fetched, and the cursor is closed. -/
theorem null_safety_fetch :
    Run.Along (Step byteEngine) (NullSafe byteEngine) (alloc blank)
      [.execDirect (.ok [select 1 [⟨[7], by simp⟩]]),
        .fetch (fun _ _ => .failed .error) (queryResult 1 []), .rowCount 8, .close] := by
  refine null_safety byteEngine blank rfl _ ⟨.inl rfl, fun _ _ => ⟨trivial, fun _ _ => ?_⟩⟩
  exact ⟨trivial, fun _ _ => ⟨trivial, fun _ _ => trivial⟩⟩

/-- Three orders of calls that break it : a statement executed before it is prepared, one
prepared again while its result is open, and a cursor moved to a row of an empty result. -/
theorem null_pointer_followed :
    ¬Run.Along (Step byteEngine) (NullSafe byteEngine) (alloc blank)
      [.execute ⟨fun _ _ => .failed .error, fun _ => queryResult 1 []⟩] ∧
    ¬Run.Along (Step byteEngine) (NullSafe byteEngine) (alloc blank)
      [.execDirect (.ok [select 1 []]), .prepare ⟨none, 0, 1, true, false⟩] ∧
    ¬Run.Along (Step byteEngine) (NullSafe byteEngine) (alloc blank)
      [.setCursorType .static, .execDirect (.ok [select 1 []]), .fetchScroll .absolute 2] := by
  refine ⟨fun h => ?_, fun h => ?_, fun h => ?_⟩
  · exact h.1 1 _ rfl (.inl rfl)
  · have h₁ := h.2 _ ⟨1, _, rfl, rfl⟩
    exact absurd (h₁.1 0 _ rfl rfl).1 (by decide)
  · have h₁ := h.2 _ ⟨0, _, rfl, rfl⟩
    have h₂ := h₁.2 _ ⟨1, _, rfl, rfl⟩
    exact h₂.1 0 _ rfl (.inr (.inr rfl))

end OdbcHandleStmt

end HaybarnOdbc
