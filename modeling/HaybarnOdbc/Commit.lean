import HaybarnOdbc.Connection

/-!
# When a commit returns

`SQLEndTran` with `SQL_COMMIT` runs `Materialize` on the last statement, whose loop calls
`FetchNext` until it does not succeed. Before the end of the result was seen every
successful call takes a chunk from the engine, so the loop ends. Once the end was seen
`FetchNext` does not ask the engine any more : it seats the cursor in front of a stored
chunk and succeeds, again and again, whenever there is one.

`commit_returns_iff` is the exact condition, for every sequence of calls on a connection,
and `commit_after_last_row` the run with one row that is read to its end.
-/

namespace HaybarnOdbc

variable {ρ V : Type}

namespace OdbcHandleStmt

/-- The statement and its result are there and without an error, so that a commit
materializes the result. -/
def MaterializesResult (h : OdbcHandleStmt ρ V) : Prop :=
  ∃ stmt res, h.stmt = some stmt ∧ h.res = some res ∧ stmt.error = none ∧ res.error = none

/-- The end of the result was seen, and a chunk of it is stored. -/
def ReadToEnd (h : OdbcHandleStmt ρ V) : Prop :=
  h.odbcFetcher.resultsetEnd = true ∧ h.odbcFetcher.chunks ≠ []

/-- The chunks that the engine has not handed over. -/
def pending (h : OdbcHandleStmt ρ V) : List (Block ρ) :=
  match h.res with
  | none => []
  | some res => res.pending

/-- A turn of the loop with the end not seen either stops or takes a pending chunk. -/
theorem fetchNext_before_end {h : OdbcHandleStmt ρ V} {res : QueryResult ρ}
    (hend : h.odbcFetcher.resultsetEnd = false) (hres : h.res = some res) :
    ∃ ret h', h.fetchNext = .ok (ret, h') ∧ h'.res.isSome ∧
      (ret.succeeded = true →
        h'.odbcFetcher.resultsetEnd = false ∧ h'.pending.length < h.pending.length) := by
  cases hp : res.pending with
  | nil =>
    cases hf : res.failure with
    | none =>
      exact ⟨_, _, fetchNext_of_done hend hres hp hf, by simp [hres], by simp [SqlReturn.succeeded]⟩
    | some msg =>
      exact ⟨_, _, fetchNext_of_failure hend hres hp hf, by simp,
        by simp [SqlReturn.succeeded]⟩
  | cons b bs =>
    have hfetch := fetchNext_of_pending hend hres hp
    obtain ⟨idx, c, -, hseat⟩ := setCurrentChunk_of_ne
      (h := ({ h with odbcFetcher := h.odbcFetcher.resetLastFetchedVariableVal }).storeChunk
        { res with pending := bs, fetched := res.fetched + 1 } ⟨res.fetched, res.columnCount, b⟩)
      (by simp only [storeChunk]; split <;> simp)
    rw [hseat] at hfetch
    refine ⟨_, _, hfetch, by simp [seat, storeChunk], fun _ => ⟨?_, ?_⟩⟩
    · simpa [seat, storeChunk, OdbcFetch.resetLastFetchedVariableVal] using hend
    · simp [pending, seat, storeChunk, hres, hp]

/-- `Materialize` returns exactly from the states that have not both seen the end and
kept a chunk. -/
theorem materialize_returns_iff {h : OdbcHandleStmt ρ V} (hres : h.res.isSome) :
    (∃ n p, h.materialize n = some (.ok p)) ↔ ¬h.ReadToEnd := by
  constructor
  · rintro ⟨n, p, hn⟩ hread
    obtain ⟨x, hx, -⟩ := Option.map_eq_some_iff.1 hn
    -- every turn seats the cursor and changes nothing else
    refine DoWhile.not_ends_of_stuck ReadToEnd (fun s hs => ?_) hread x ⟨n, hx⟩
    obtain ⟨idx, c, -, hseat⟩ := setCurrentChunk_of_ne hs.2
    exact ⟨.success, s.seat idx c, by rw [fetchNext_of_end hs.1, hseat], rfl, hs⟩
  · intro hread
    suffices hends : ∃ p, DoWhile.Ends fetchNext SqlReturn.succeeded h (.ok p) by
      obtain ⟨p, n, hn⟩ := hends
      exact ⟨n, _, by rw [materialize, materializeLoop, hn]; rfl⟩
    cases hend : h.odbcFetcher.resultsetEnd with
    | true =>
      have hempty : h.odbcFetcher.chunks = [] := by
        by_contra hne
        exact hread ⟨hend, hne⟩
      exact ⟨_, DoWhile.ends_of_stop
        (by rw [fetchNext_of_end hend, setCurrentChunk_of_empty hempty]) rfl⟩
    | false =>
      obtain ⟨x, hx, p, rfl⟩ := DoWhile.exists_ends fetchNext SqlReturn.succeeded
        (fun s => s.odbcFetcher.resultsetEnd = false ∧ s.res.isSome) (fun s => s.pending.length)
        (fun x => ∃ p, x = .ok p)
        (by
          rintro s e ⟨hs, hsres⟩ hb
          obtain ⟨res, hres⟩ := Option.isSome_iff_exists.1 hsres
          obtain ⟨r, s', hfetch, -⟩ := fetchNext_before_end hs hres
          rw [hfetch] at hb
          cases hb)
        (by
          rintro s r s' ⟨hs, hsres⟩ hb hr
          obtain ⟨res, hres⟩ := Option.isSome_iff_exists.1 hsres
          obtain ⟨r₁, s₁, hfetch, hres₁, hlt⟩ := fetchNext_before_end hs hres
          rw [hfetch] at hb
          cases hb
          exact ⟨⟨(hlt hr).1, hres₁⟩, (hlt hr).2⟩)
        (fun s r s' _ _ _ => ⟨(r, s'), rfl⟩) h ⟨hend, hres⟩
      exact ⟨p, hx⟩

/-- A result that is read from the engine is materialized. -/
theorem materializeResult_of_result {h : OdbcHandleStmt ρ V} (hm : h.MaterializesResult) (n : ℕ) :
    h.materializeResult n = h.materialize n := by
  obtain ⟨stmt, res, hstmt, hres, hserr, hrerr⟩ := hm
  simp [materializeResult, hstmt, hres, hserr, hrerr]

/-- Without one there is nothing to do. -/
theorem materializeResult_of_not {h : OdbcHandleStmt ρ V} (hm : ¬h.MaterializesResult) (n : ℕ) :
    h.materializeResult n = some (.ok (.success, h)) := by
  unfold materializeResult
  split
  · next stmt res hstmt hres =>
    refine if_pos ?_
    by_contra hnone
    push Not at hnone
    exact hm ⟨stmt, res, hstmt, hres, by simpa using hnone.1, by simpa using hnone.2⟩
  · rfl

/-- A commit on the statement returns exactly if it has nothing to materialize, or has not
both seen the end and kept a chunk. -/
theorem materializeResult_returns_iff (h : OdbcHandleStmt ρ V) :
    (∃ n p, h.materializeResult n = some (.ok p)) ↔ ¬(h.MaterializesResult ∧ h.ReadToEnd) := by
  by_cases hm : h.MaterializesResult
  · simp only [materializeResult_of_result hm]
    obtain ⟨stmt, res, -, hres, -⟩ := id hm
    rw [materialize_returns_iff (by simp [hres])]
    exact not_congr ⟨fun hread => ⟨hm, hread⟩, And.right⟩
  · exact iff_of_true ⟨0, (.success, h), materializeResult_of_not hm 0⟩ fun hboth => hm hboth.1

end OdbcHandleStmt

namespace OdbcHandleDbc

/-- The statement whose result a commit materializes has been read to its end. -/
def LastReadToEnd (d : OdbcHandleDbc ρ V) : Prop :=
  ∃ h, d.vecStmtRef.getLast? = some h ∧ h.MaterializesResult ∧ h.ReadToEnd

/-- A commit on a connection returns exactly if its last statement is not read to the end. -/
theorem commit_step_iff (E : Engine ρ V) (d : OdbcHandleDbc ρ V) :
    (∃ d', Step E d (.endTran .commit) d') ↔ ¬d.LastReadToEnd := by
  have hstep : (∃ d', Step E d (.endTran .commit) d') ↔
      ∃ n p, d.materializeResult n = some (.ok p) := by
    constructor
    · rintro ⟨d', n, ret, h⟩
      simp only [perform, sqlEndTran, Option.map_eq_some_iff] at h
      obtain ⟨x, hx, hmap⟩ := h
      cases x with
      | error e => cases hmap
      | ok p => exact ⟨n, p, hx⟩
    · rintro ⟨n, p, h⟩
      exact ⟨p.2, n, _, by simp only [perform, sqlEndTran, h]; rfl⟩
  rw [hstep]
  cases hlast : d.vecStmtRef.getLast? with
  | none => simp [LastReadToEnd, materializeResult, hlast]
  | some h =>
    have hiff : (∃ n p, d.materializeResult n = some (.ok p)) ↔
        ∃ n p, h.materializeResult n = some (.ok p) := by
      simp only [materializeResult, hlast, Option.map_eq_some_iff]
      constructor
      · rintro ⟨n, p, x, hx, hmap⟩
        cases x with
        | error e => cases hmap
        | ok q => exact ⟨n, q, hx⟩
      · rintro ⟨n, q, hq⟩
        exact ⟨n, _, _, hq, rfl⟩
    rw [hiff, OdbcHandleStmt.materializeResult_returns_iff]
    simp [LastReadToEnd, hlast]

/-- In every sequence of calls on a connection, all commits return if and only if none of
them is made when the last statement was read to its end and keeps a chunk. -/
theorem commit_returns_iff (E : Engine ρ V) (d : OdbcHandleDbc ρ V) (calls : List (DbcCall ρ V)) :
    Run.Along (Step E) (fun d c => c = .endTran .commit → ∃ d', Step E d c d') d calls ↔
      Run.Along (Step E) (fun d c => c = .endTran .commit → ¬d.LastReadToEnd) d calls := by
  refine Run.along_congr (fun d c => ?_) d calls
  constructor
  · rintro h rfl
    exact (commit_step_iff E d).1 (h rfl)
  · rintro h rfl
    exact (commit_step_iff E d).2 (h rfl)

/-- A statement is executed, its one row is fetched, and so is the end. -/
def readOneRow : List (DbcCall ℕ ℕ) :=
  let next := Call.fetch (fun _ _ => .failed .error) (queryResult 1 [])
  [.allocStmt .blank, .onStmt 0 (.execDirect (.ok [select 1 [⟨[7], by simp⟩]])), .onStmt 0 next,
    .onStmt 0 next]

/-- A commit after the last row was read does not return. -/
theorem commit_after_last_row :
    ¬Run.Along (Step byteEngine) (fun d c => c = .endTran .commit → ∃ d', Step byteEngine d c d')
      fresh (readOneRow ++ [.endTran .commit]) := by
  intro h
  have h₁ := h.2 _ ⟨0, _, rfl⟩
  have h₂ := h₁.2 _ ⟨1, _, rfl⟩
  have h₃ := h₂.2 _ ⟨0, _, rfl⟩
  have h₄ := h₃.2 _ ⟨0, _, rfl⟩
  refine (commit_step_iff byteEngine _).1 (h₄.1 rfl) ⟨_, rfl, ⟨_, _, rfl, rfl, rfl, rfl⟩, rfl, ?_⟩
  exact List.cons_ne_nil _ _

end OdbcHandleDbc

end HaybarnOdbc
