import HaybarnOdbc.Binding
import HaybarnOdbc.EngineError
import HaybarnOdbc.Scroll

/-!
# Scrolling to a row by its number

`SQLFetchScroll` hands `SetAbsoluteCurrentChunk` the number of a row less one, and this takes
the offset relative to the chunk that is current : from the next chunk on it subtracts the size
of the chunk it comes to, not of the one it leaves, and a negative offset counts back from the
row of the cursor. Whether that leads to the row depends on the position and on the sizes of the
chunks (`AbsoluteInStep`).

A position that fetches lead to is any stored chunk with an index that need not be its own, as
running off the end sets the index back (`Holding`). From there the chunks that `FetchNext` comes
to one after the other are `upcoming`.
-/

namespace HaybarnOdbc

variable {ρ V : Type}

namespace OdbcHandleStmt

/-! ## The positions that fetches lead to -/

/-- The handle holds a result of `cols` columns in the chunks `bs`, some of them stored and the
others left with the engine, which reads it to its end. The bindings are the ones of `h₀`. -/
structure Holding (h₀ : OdbcHandleStmt ρ V) (cols : ℕ) (bs : List (Block ρ))
    (h : OdbcHandleStmt ρ V) : Prop where
  same : SameBindings h₀ h
  cursorType : h.odbcFetcher.cursorType ≠ .forwardOnly
  opened : h.opened = true
  low : -1 ≤ h.odbcFetcher.chunkRow
  idx : h.odbcFetcher.chunks ≠ [] → h.odbcFetcher.currentChunkIdx < h.odbcFetcher.chunks.length
  current : h.odbcFetcher.chunks ≠ [] → h.odbcFetcher.currentChunk.isSome
  stored : ∀ c, h.odbcFetcher.currentChunk = some c → c ∈ h.odbcFetcher.chunks
  columns : ∀ c ∈ h.odbcFetcher.chunks, c.columnCount = cols
  res : ∃ res, h.res = some res ∧ res.failure = none ∧ res.error = none ∧ res.columnCount = cols ∧
    blocksOf h.odbcFetcher.chunks res.pending = bs ∧
    (h.odbcFetcher.resultsetEnd = true → res.pending = [])

namespace Holding

variable {E : Engine ρ V} {h₀ h h' : OdbcHandleStmt ρ V} {cols : ℕ} {bs : List (Block ρ)}

theorem of_diag (hh : Holding h₀ cols bs h) (diag : List DiagRecord) :
    Holding h₀ cols bs { h with diag := diag } :=
  ⟨hh.same, hh.cursorType, hh.opened, hh.low, hh.idx, hh.current, hh.stored, hh.columns, hh.res⟩

/-- A step of the cursor keeps them. -/
theorem step (hh : Holding h₀ cols bs h) (hs : CursorStep h h') : Holding h₀ cols bs h' := by
  have hlow := CursorSteps.low (.single hs) hh.low
  have hsame := hh.same.trans hs.moved.sameBindings
  obtain ⟨res, hres, hf, herr, hcols, hblocks, hseen⟩ := hh.res
  cases hs with
  | place | refused =>
    exact ⟨hsame, hh.cursorType, hh.opened, hlow, hh.idx, hh.current, hh.stored, hh.columns, hh.res⟩
  | seat hc =>
    refine ⟨hsame, hh.cursorType, hh.opened, hlow, fun _ => (List.getElem?_eq_some_iff.1 hc).1,
      fun _ => rfl, fun d hd => ?_, hh.columns, hh.res⟩
    obtain rfl := Option.some.inj hd
    exact List.mem_of_getElem? hc
  | reset =>
    exact ⟨hsame, hh.cursorType, hh.opened, hlow, List.length_pos_iff.2, hh.current, hh.stored,
      hh.columns, hh.res⟩
  | @taken res' b bs' idx c hend hres' hp hc =>
    obtain rfl := Option.some.inj (hres.symm.trans hres')
    have hchunks : (h.taking res b bs').odbcFetcher.chunks =
        h.odbcFetcher.chunks ++ [⟨res.fetched, res.columnCount, b⟩] := chunks_taking hh.cursorType
    refine ⟨hsame, hh.cursorType, hh.opened, hlow, fun _ => (List.getElem?_eq_some_iff.1 hc).1,
      fun _ => rfl, fun d hd => ?_, fun d hd => ?_, _, rfl, hf, herr, hcols, ?_, fun hseen' => ?_⟩
    · obtain rfl := Option.some.inj hd
      exact List.mem_of_getElem? hc
    · have hd' : d ∈ (h.taking res b bs').odbcFetcher.chunks := hd
      rcases mem_taking hd' with hmem | rfl
      · exact hh.columns d hmem
      · exact hcols
    · change blocksOf (h.taking res b bs').odbcFetcher.chunks bs' = bs
      rw [hchunks, ← hblocks, hp]
      simp [blocksOf]
    · exact absurd (hend.symm.trans hseen') (by simp)
  | ended hend hres' hp =>
    obtain rfl := Option.some.inj (hres.symm.trans hres')
    exact ⟨hsame, hh.cursorType, hh.opened, hlow, hh.idx, hh.current, hh.stored, hh.columns,
      res, hres, hf, herr, hcols, hblocks, fun _ => hp⟩
  | failed hend hres' hp hf' =>
    obtain rfl := Option.some.inj (hres.symm.trans hres')
    exact absurd (hf.symm.trans hf') (by simp)

/-- A delivery keeps them. -/
theorem deliver {d : Delivery ρ V} (hh : Holding h₀ cols bs h) (hx : h.deliver E = .ok d) :
    Holding h₀ cols bs d.h := by
  have hlow := low_deliver hh.low hx
  have hsame := hh.same.trans (sameChunk_deliver hx).sameBindings
  obtain ⟨row, count, last, diag, heq⟩ := sameChunk_deliver hx
  rw [heq] at hlow hsame ⊢
  exact ⟨hsame, hh.cursorType, hh.opened, hlow, hh.idx, hh.current, hh.stored, hh.columns, hh.res⟩

/-- A fetch keeps them. -/
theorem fetchStmtResult {o : FetchOrientation} {off : ℤ} {d : Delivery ρ V}
    (hh : Holding h₀ cols bs h) (hx : h.fetchStmtResult E o off = .ok d) :
    Holding h₀ cols bs d.h :=
  fetchStmtResult_invariant step deliver hh hx

theorem convertHSTMT (hh : Holding h₀ cols bs h) : Holding h₀ cols bs h.convertHSTMT :=
  hh.of_diag []

/-- The check of `SQLFetchScroll` passes. -/
theorem convertHSTMTResult (hh : Holding h₀ cols bs h) :
    h.convertHSTMTResult = .ok (.success, h.convertHSTMT) := by
  obtain ⟨res, hres, -, herr, -⟩ := hh.res
  simp only [OdbcHandleStmt.convertHSTMTResult, OdbcHandleStmt.convertHSTMT, hres, herr]

/-- `SQLFetchScroll` keeps them. -/
theorem sqlFetchScroll {o : FetchOrientation} {off : ℤ} {r : Reply ρ V}
    (hh : Holding h₀ cols bs h) (hx : h.sqlFetchScroll E o off = .ok r) :
    Holding h₀ cols bs r.h := by
  unfold OdbcHandleStmt.sqlFetchScroll at hx
  split at hx
  · cases hx
    exact hh
  · obtain ⟨p, hp, hx⟩ := Outcome.bind_eq_ok.1 hx
    obtain rfl := Except.ok.inj (hp.symm.trans hh.convertHSTMTResult)
    obtain ⟨d, hd, hx⟩ := Outcome.bind_eq_ok.1 hx
    cases hx
    exact hh.convertHSTMT.fetchStmtResult hd

/-- The result is there, so that `SQLFetch` does not execute the statement. -/
theorem executeBeforeFetch {source : ParamSource V} {result : QueryResult ρ} {x : Executed ρ V}
    (hh : Holding h₀ cols bs h) (hx : h.executeBeforeFetch source result = .ok x) :
    Holding h₀ cols bs x.h := by
  obtain ⟨res, hres, -, herr, -⟩ := hh.res
  have hany : (h.convertHSTMT.res.any fun res => res.error.isNone) = true := by
    simp [OdbcHandleStmt.convertHSTMT, hres, herr]
  unfold OdbcHandleStmt.executeBeforeFetch at hx
  rcases h.convertHSTMTPrepared_cases with ⟨stmt, -, -, hconv⟩ | ⟨diag, hconv⟩
  · rw [hconv] at hx
    dsimp only at hx
    rw [if_pos hany] at hx
    cases hx
    exact hh.convertHSTMT
  · rw [hconv] at hx
    cases hx
    exact hh.of_diag diag

/-- `SQLFetch` keeps them. -/
theorem sqlFetch {source : ParamSource V} {result : QueryResult ρ} {r : Reply ρ V}
    (hh : Holding h₀ cols bs h) (hx : h.sqlFetch E source result = .ok r) :
    Holding h₀ cols bs r.h := by
  unfold OdbcHandleStmt.sqlFetch at hx
  rcases h.convertHSTMTPrepared_cases with ⟨stmt, -, -, hconv⟩ | ⟨diag, hconv⟩
  · rw [hconv] at hx
    dsimp only at hx
    split at hx
    · obtain ⟨x, hexec, hx⟩ := Outcome.bind_eq_ok.1 hx
      have hhx := hh.convertHSTMT.executeBeforeFetch hexec
      split at hx
      · cases hx
        exact hhx
      · obtain ⟨d, hd, hx⟩ := Outcome.bind_eq_ok.1 hx
        cases hx
        exact hhx.fetchStmtResult hd
    · cases hx
      exact hh.convertHSTMT
  · rw [hconv] at hx
    cases hx
    exact hh.of_diag diag

/-- Any fetches. -/
theorem outputs {calls : List (FetchCall ρ V)} {replies : List (Reply ρ V)}
    (hh : Holding h₀ cols bs h) (hx : Run.outputs (fetchCallStep E) h calls = .ok (replies, h')) :
    Holding h₀ cols bs h' := by
  refine Run.outputs_invariant (Holding h₀ cols bs) ?_ hh hx
  intro h call reply h' hh hstep
  cases call with
  | fetch source result =>
    obtain ⟨r, hr, heq⟩ := Outcome.map_eq_ok.1 hstep
    cases heq
    exact hh.sqlFetch hr
  | scroll o off =>
    obtain ⟨r, hr, heq⟩ := Outcome.map_eq_ok.1 hstep
    cases heq
    exact hh.sqlFetchScroll hr

end Holding

/-- The result of a batch that succeeded has no error. -/
theorem errorFree_of_batch {a : ExecAnswers ρ V} {h : OdbcHandleStmt ρ V} {ret : SqlReturn}
    {b : Batch ρ V} (hend : BatchEnds a h (.ok (ret, b))) (hret : ret.succeeded) :
    ∀ res, b.h.res = some res → res.error = none := by
  obtain ⟨n, hn⟩ := hend
  refine DoWhile.run_invariant (batchBody a) (· = .stillExecuting) (fun _ => True)
    (fun x => ∀ ret b, x = .ok (ret, b) → ret.succeeded = true →
      ∀ res, b.h.res = some res → res.error = none) (fun _ _ _ _ _ _ heq => nomatch heq)
    (fun _ _ _ _ _ _ => trivial) ?_ trivial hn ret b rfl hret
  intro b r b' _ hbody _ ret₁ b₁ heq hsucc res hres
  cases heq
  obtain ⟨log, hx, -⟩ := batchBody_cases hbody
  obtain ⟨h', turn', log'⟩ := b'
  simp only at hx hres
  cases hx with
  | unread hfail => rcases hfail with rfl | rfl <;> simp [SqlReturn.succeeded] at hsucc
  | failed => simp [SqlReturn.succeeded] at hsucc
  | once _ herr =>
    obtain rfl := Option.some.inj hres
    exact herr
  | set _ herr =>
    obtain rfl := Option.some.inj hres
    exact herr

/-- Another cursor type and other bindings. -/
theorem Holding.rebind {h₀ h₀' h h' : OdbcHandleStmt ρ V} {cols : ℕ} {bs : List (Block ρ)}
    (hh : Holding h₀ cols bs h) (hs : SameBindings h₀' h')
    (hcur : h'.odbcFetcher.cursorType ≠ .forwardOnly) (hopen : h'.opened = h.opened)
    (hres : h'.res = h.res)
    (hf : h'.odbcFetcher = { h.odbcFetcher with cursorType := h'.odbcFetcher.cursorType }) :
    Holding h₀' cols bs h' := by
  refine ⟨hs, hcur, hopen.trans hh.opened, ?_, ?_, ?_, ?_, ?_, ?_⟩
  · rw [hf]
    exact hh.low
  · rw [hf]
    exact hh.idx
  · rw [hf]
    exact hh.current
  · rw [hf]
    exact hh.stored
  · rw [hf]
    exact hh.columns
  · rw [hf, hres]
    exact hh.res

/-- A batch that succeeded holds its result : all chunks are with the engine, and fetching the
first one is a move of the cursor. -/
theorem holding_of_execute {k : ℕ} {a : ExecAnswers ρ V} {h h' : OdbcHandleStmt ρ V}
    {x : Executed ρ V} (hx : h.batchExecuteStmt k a = some (.ok x)) (hret : x.ret.succeeded)
    {result : QueryResult ρ} (hresult : a.results (runs x.log - 1) = result)
    (hf : result.failure = none) (hbound : Rebound x.h h')
    (hcur : h'.odbcFetcher.cursorType ≠ .forwardOnly) :
    Holding h' result.columnCount result.pending h' := by
  obtain ⟨y, hrun, hfinish⟩ := Option.map_eq_some_iff.1 hx
  obtain ⟨⟨ret, b⟩, rfl, hfinish⟩ := Outcome.bind_eq_ok.1 hfinish
  obtain ⟨hlog, -, hsucc⟩ := batchFinish_cases hfinish
  have hends : BatchEnds a h (.ok (ret, b)) := ⟨k, hrun⟩
  have hfresh := freshResult_of_batch hends (hsucc hret)
  obtain ⟨f, hcleared⟩ := hfresh.cleared
  have hres : b.h.res = some result := by rw [hfresh.res, ← hresult, hlog]
  have hfirst₀ : Holding b.h result.columnCount result.pending
      { b.h with odbcFetcher.cursorType := .dynamic } :=
    { same := ⟨rfl, rfl, rfl, rfl⟩
      cursorType := by simp
      opened := hfresh.opened
      low := by simp [hcleared, OdbcFetch.clearChunks]
      idx := by simp [hcleared, OdbcFetch.clearChunks]
      current := by simp [hcleared, OdbcFetch.clearChunks]
      stored := by simp [hcleared, OdbcFetch.clearChunks]
      columns := by simp [hcleared, OdbcFetch.clearChunks]
      res := ⟨result, hres, hf, errorFree_of_batch hends (hsucc hret) result hres, rfl,
        by simp [hcleared, OdbcFetch.clearChunks, blocksOf],
        by simp [hcleared, OdbcFetch.clearChunks]⟩ }
  change batchFinish ret b.h b.log = .ok x at hfinish
  unfold batchFinish at hfinish
  rw [if_neg (by simpa using hsucc hret)] at hfinish
  obtain ⟨⟨fetchRet, h₂⟩, hfirst, hfinish⟩ := Outcome.bind_eq_ok.1 hfinish
  obtain ⟨⟨ret₁, h₁⟩, hmove, heq⟩ := Outcome.bind_eq_ok.1 hfirst
  cases heq
  have hh₁ := (steps_fetchNextChunk hmove).invariant Holding.step hfirst₀
  obtain ⟨bound, desc, ptr, type, diag, rfl⟩ := hbound
  dsimp only at hfinish
  repeat' split at hfinish
  all_goals first
    | (cases hfinish; exact hh₁.rebind ⟨rfl, rfl, rfl, rfl⟩ hcur rfl rfl rfl)
    | cases hfinish

/-! ## The chunks that `FetchNext` comes to -/

/-- The chunks that calls of `FetchNext` step to one after the other. Once the end was seen they
are the stored ones behind the index. Before, each step takes a chunk from the engine, whether
or not it steps to a stored one, so that there are as many as the engine has left. -/
def upcoming (h : OdbcHandleStmt ρ V) : List (Block ρ) :=
  let stored := h.odbcFetcher.chunks.drop (h.odbcFetcher.currentChunkIdx + 1)
  match h.res with
  | none => []
  | some res =>
    if h.odbcFetcher.resultsetEnd then blocksOf stored []
    else (blocksOf stored res.pending).take res.pending.length

/-- At the end of the result only the chunks behind the current one are to come. -/
theorem upcoming_of_end {h : OdbcHandleStmt ρ V} {res : QueryResult ρ} (hres : h.res = some res)
    (hend : h.odbcFetcher.resultsetEnd = true) : h.upcoming =
      blocksOf (h.odbcFetcher.chunks.drop (h.odbcFetcher.currentChunkIdx + 1)) [] := by
  simp [upcoming, hres, hend]

/-- Before the end what is to come are these and those that the engine still holds. -/
theorem upcoming_of_open {h : OdbcHandleStmt ρ V} {res : QueryResult ρ} (hres : h.res = some res)
    (hend : h.odbcFetcher.resultsetEnd = false) : h.upcoming =
      (blocksOf (h.odbcFetcher.chunks.drop (h.odbcFetcher.currentChunkIdx + 1))
        res.pending).take res.pending.length := by
  simp [upcoming, hres, hend]

/-- `FetchNext` came from `h` to the stored chunk `c`, with the chunks `us` upcoming. Taking a
chunk from the engine forgets the cell that was read last. -/
structure CameTo (h : OdbcHandleStmt ρ V) (c : DataChunk ρ) (us : List (Block ρ))
    (h' : OdbcHandleStmt ρ V) : Prop where
  current : h'.odbcFetcher.currentChunk = some c
  stored : c ∈ h'.odbcFetcher.chunks
  row : h'.odbcFetcher.chunkRow = -1
  upcoming : h'.upcoming = us
  seen : h'.odbcFetcher.resultsetEnd = h.odbcFetcher.resultsetEnd
  noted : (h.odbcFetcher.resultsetEnd = true ∧
      h'.odbcFetcher.lastFetched = h.odbcFetcher.lastFetched) ∨
    (h.odbcFetcher.resultsetEnd = false ∧ h'.odbcFetcher.lastFetched.length = 0)

/-- The next stored chunk becomes the current one. -/
theorem setCurrentChunk_of_drop {h : OdbcHandleStmt ρ V}
    (hcur : h.odbcFetcher.cursorType ≠ .forwardOnly) {c : DataChunk ρ} {rest : List (DataChunk ρ)}
    (hdrop : h.odbcFetcher.chunks.drop (h.odbcFetcher.currentChunkIdx + 1) = c :: rest) :
    h.setCurrentChunk = (.success, h.seat (h.odbcFetcher.currentChunkIdx + 1) c) ∧
      c ∈ h.odbcFetcher.chunks ∧
      h.odbcFetcher.chunks.drop (h.odbcFetcher.currentChunkIdx + 1 + 1) = rest := by
  have hget : h.odbcFetcher.chunks[h.odbcFetcher.currentChunkIdx + 1]? = some c := by
    have h0 := congrArg (·[0]?) hdrop
    simpa [List.getElem?_drop] using h0
  refine ⟨setCurrentChunk_of_stored hcur hget, List.mem_of_getElem? hget, ?_⟩
  rw [← List.drop_drop, hdrop]
  rfl

section Upcoming

variable {h₀ h : OdbcHandleStmt ρ V} {cols : ℕ} {bs : List (Block ρ)}

/-- `FetchNext` steps to the first upcoming chunk. -/
theorem Holding.fetchNext_upcoming (hh : Holding h₀ cols bs h) {c₀ : DataChunk ρ}
    (hmem : c₀ ∈ h.odbcFetcher.chunks) {b : Block ρ} {us : List (Block ρ)}
    (hup : h.upcoming = b :: us) :
    ∃ h' c, h.fetchNext = .ok (.success, h') ∧ CameTo h c us h' ∧ c.block = b := by
  have hidx := hh.idx (List.ne_nil_of_mem hmem)
  obtain ⟨res, hres, -⟩ := hh.res
  cases hend : h.odbcFetcher.resultsetEnd with
  | true =>
    rw [upcoming_of_end hres hend] at hup
    cases hdrop : h.odbcFetcher.chunks.drop (h.odbcFetcher.currentChunkIdx + 1) with
    | nil => simp [hdrop, blocksOf] at hup
    | cons c rest =>
      obtain ⟨hset, hc, hrest⟩ := setCurrentChunk_of_drop hh.cursorType hdrop
      rw [hdrop] at hup
      obtain ⟨rfl, rfl⟩ := List.cons.inj hup
      refine ⟨h.seat (h.odbcFetcher.currentChunkIdx + 1) c, c, by rw [fetchNext_of_end hend, hset],
        ⟨rfl, hc, rfl, ?_, rfl, .inl ⟨hend, rfl⟩⟩, rfl⟩
      rw [upcoming_of_end (h := h.seat (h.odbcFetcher.currentChunkIdx + 1) c) hres hend]
      exact congrArg (blocksOf · []) hrest
  | false =>
    rw [upcoming_of_open hres hend] at hup
    cases hp : res.pending with
    | nil => simp [hp] at hup
    | cons p ps =>
      have hchunks : (h.taking res p ps).odbcFetcher.chunks =
          h.odbcFetcher.chunks ++ [⟨res.fetched, res.columnCount, p⟩] := chunks_taking hh.cursorType
      have hdrop' : (h.taking res p ps).odbcFetcher.chunks.drop
          ((h.taking res p ps).odbcFetcher.currentChunkIdx + 1) =
            h.odbcFetcher.chunks.drop (h.odbcFetcher.currentChunkIdx + 1) ++
              [⟨res.fetched, res.columnCount, p⟩] := by
        rw [hchunks]
        exact List.drop_append_of_le_length (Nat.succ_le_of_lt hidx)
      obtain ⟨c, rest, hcons⟩ := List.exists_cons_of_ne_nil
        (l := h.odbcFetcher.chunks.drop (h.odbcFetcher.currentChunkIdx + 1) ++
          [(⟨res.fetched, res.columnCount, p⟩ : DataChunk ρ)]) (by simp)
      obtain ⟨hset, hc, hrest⟩ := setCurrentChunk_of_drop (h := h.taking res p ps) hh.cursorType
        (hdrop'.trans hcons)
      have hblocks : blocksOf (h.odbcFetcher.chunks.drop (h.odbcFetcher.currentChunkIdx + 1))
          (p :: ps) = c.block :: blocksOf rest ps := by
        have := congrArg (blocksOf · ps) hcons
        simpa [blocksOf] using this
      rw [hp, hblocks] at hup
      obtain ⟨rfl, rfl⟩ := List.cons.inj hup
      have hnext : h.fetchNext = .ok (h.taking res p ps).setCurrentChunk :=
        fetchNext_of_pending hend hres hp
      refine ⟨(h.taking res p ps).seat (h.odbcFetcher.currentChunkIdx + 1) c, c,
        by rw [hnext, hset]; rfl, ⟨rfl, hc, rfl, ?_, rfl, .inr ⟨hend, rfl⟩⟩, rfl⟩
      rw [upcoming_of_open (h := (h.taking res p ps).seat (h.odbcFetcher.currentChunkIdx + 1) c)
        rfl hend]
      exact congrArg (fun stored => (blocksOf stored ps).take ps.length) hrest

/-- With none upcoming it finds the end, if that was not seen. -/
theorem Holding.fetchNext_none (hh : Holding h₀ cols bs h)
    (hend : h.odbcFetcher.resultsetEnd = false) (hup : h.upcoming = []) :
    ∃ h', h.fetchNext = .ok (.noData, h') := by
  obtain ⟨res, hres, hf, -⟩ := hh.res
  have hp : res.pending = [] := by
    rw [upcoming_of_open hres hend] at hup
    rcases List.take_eq_nil_iff.1 hup with hzero | hnil
    · exact List.length_eq_zero_iff.1 hzero
    · exact (List.append_eq_nil_iff.1 hnil).2
  exact ⟨_, fetchNext_of_done hend hres hp hf⟩

end Upcoming

/-! ## The turns of `SetAbsoluteCurrentChunk` -/

section Turn

variable {h h' : OdbcHandleStmt ρ V} {c : DataChunk ρ} {off : ℤ}

/-- A current chunk that is stored can be read. -/
theorem absoluteLoop_of_stored (hcur : h.odbcFetcher.currentChunk = some c)
    (hmem : c ∈ h.odbcFetcher.chunks) :
    h.ensureChunk = .ok (.success, h) ∧ h.odbcFetcher.deref = .ok c := by
  refine ⟨?_, OdbcFetch.deref_eq_ok hcur hmem⟩
  unfold ensureChunk
  rw [if_neg]
  simp [hcur, List.ne_nil_of_mem hmem]

variable (n : ℕ)

/-- The offset counts back from the row of the cursor. -/
theorem absoluteLoop_back (hcur : h.odbcFetcher.currentChunk = some c)
    (hmem : c ∈ h.odbcFetcher.chunks) (hneg : off < 0) (hle : off.natAbs ≤ c.size) :
    absoluteLoop (n + 1) h off =
      .ok (.success, h.setRow (max (-1) (h.odbcFetcher.chunkRow + off + 1))) := by
  obtain ⟨hensure, hderef⟩ := absoluteLoop_of_stored hcur hmem
  simp only [absoluteLoop, hensure, hderef, bind, Except.bind]
  rw [if_neg (by omega), if_pos ⟨hneg, hle⟩]

/-- The offset of the first row leads in front of it. -/
theorem absoluteLoop_zero (hcur : h.odbcFetcher.currentChunk = some c)
    (hmem : c ∈ h.odbcFetcher.chunks) (hzero : off = 0) :
    absoluteLoop (n + 1) h off = .ok h.beforeStart := by
  obtain ⟨hensure, hderef⟩ := absoluteLoop_of_stored hcur hmem
  simp only [absoluteLoop, hensure, hderef, bind, Except.bind]
  rw [if_neg (by omega), if_neg (by omega), if_neg (by omega), if_neg (by omega), if_pos hzero]

/-- A row of the chunk. -/
theorem absoluteLoop_row (hcur : h.odbcFetcher.currentChunk = some c)
    (hmem : c ∈ h.odbcFetcher.chunks) (hpos : 0 < off) (hlt : off < c.size) :
    absoluteLoop (n + 1) h off = .ok (.success, h.setRow (off - 1)) := by
  obtain ⟨hensure, hderef⟩ := absoluteLoop_of_stored hcur hmem
  simp only [absoluteLoop, hensure, hderef, bind, Except.bind]
  rw [if_neg (by omega), if_neg (by omega), if_neg (by omega), if_neg (by omega),
    if_neg (by omega), if_pos (by omega)]

/-- Past the chunk, where the end was seen. -/
theorem absoluteLoop_past (hcur : h.odbcFetcher.currentChunk = some c)
    (hmem : c ∈ h.odbcFetcher.chunks) (hend : h.odbcFetcher.resultsetEnd = true)
    (hlt : c.size < off) : absoluteLoop (n + 1) h off = .ok (.noData, h) := by
  obtain ⟨hensure, hderef⟩ := absoluteLoop_of_stored hcur hmem
  simp only [absoluteLoop, hensure, hderef, bind, Except.bind]
  rw [if_pos ⟨hlt, hend⟩]

/-- A chunk that the offset passes : the size of the next one is taken off it. -/
theorem absoluteLoop_pass (hcur : h.odbcFetcher.currentChunk = some c)
    (hmem : c ∈ h.odbcFetcher.chunks) (hle : c.size ≤ off)
    (hend : h.odbcFetcher.resultsetEnd = true → off ≤ c.size)
    (hnext : h.fetchNext = .ok (.success, h')) {c' : DataChunk ρ}
    (hcur' : h'.odbcFetcher.currentChunk = some c') (hmem' : c' ∈ h'.odbcFetcher.chunks) :
    absoluteLoop (n + 1) h off = absoluteLoop n h' (off - c'.size) := by
  obtain ⟨hensure, hderef⟩ := absoluteLoop_of_stored hcur hmem
  have hderef' := OdbcFetch.deref_eq_ok hcur' hmem'
  have hsize := c.size_pos
  have hpast : ¬(off > c.size ∧ h.odbcFetcher.resultsetEnd = true) := fun hp =>
    absurd (hend hp.2) (by omega)
  rw [absoluteLoop]
  simp only [hensure, hderef, bind, Except.bind]
  rw [if_neg hpast, if_neg (by omega), if_neg (by omega), if_neg (by omega), if_neg (by omega),
    if_neg (by omega), if_pos (by omega), hnext]
  simp only [ne_eq, not_true_eq_false, if_false, hderef']

/-- The engine has no chunk left. -/
theorem absoluteLoop_end (hcur : h.odbcFetcher.currentChunk = some c)
    (hmem : c ∈ h.odbcFetcher.chunks) (hle : c.size ≤ off)
    (hend : h.odbcFetcher.resultsetEnd = false) (hnext : h.fetchNext = .ok (.noData, h')) :
    ∃ h'', absoluteLoop (n + 1) h off = .ok (.noData, h'') := by
  obtain ⟨hensure, hderef⟩ := absoluteLoop_of_stored hcur hmem
  have hsize := c.size_pos
  rw [absoluteLoop]
  simp only [hensure, hderef, bind, Except.bind]
  rw [if_neg (by simp [hend]), if_neg (by omega), if_neg (by omega), if_neg (by omega),
    if_neg (by omega), if_neg (by omega), if_pos (by omega), hnext]
  exact ⟨_, rfl⟩

end Turn

/-! ## The walk over the upcoming chunks -/

/-- The offset passes the chunks `via` : the size of each is taken off it, and what is left is no
smaller than the size, nor larger once the end was seen. -/
def Passes (ended : Bool) : ℤ → List (Block ρ) → Prop
  | _, [] => True
  | off, b :: via => b.rows.length ≤ off - b.rows.length ∧
      (ended = true → off - b.rows.length ≤ b.rows.length) ∧
      Passes ended (off - b.rows.length) via

section Walk

variable {h₀ h : OdbcHandleStmt ρ V} {cols : ℕ} {bs : List (Block ρ)} {c : DataChunk ρ} {off : ℤ}
  {n : ℕ}

/-- The turn that comes to the upcoming chunk `b`. -/
theorem Holding.turn (hh : Holding h₀ cols bs h) (hcur : h.odbcFetcher.currentChunk = some c)
    (hmem : c ∈ h.odbcFetcher.chunks) (hle : c.size ≤ off)
    (hend : h.odbcFetcher.resultsetEnd = true → off ≤ c.size) {b : Block ρ} {us : List (Block ρ)}
    (hup : h.upcoming = b :: us) (hn : off.toNat ≤ n) :
    ∃ m h' c', absoluteLoop (n + 1) h off = absoluteLoop (m + 1) h' (off - b.rows.length) ∧
      (off - b.rows.length).toNat ≤ m ∧ Holding h₀ cols bs h' ∧ CameTo h c' us h' ∧
      c'.block = b := by
  obtain ⟨h', c', hnext, hto, rfl⟩ := hh.fetchNext_upcoming hmem hup
  have hsize := c.size_pos
  have hsize' := c'.size_pos
  have hrows : c'.block.rows.length = c'.size := rfl
  obtain ⟨m, rfl⟩ : ∃ m, n = m + 1 := ⟨n - 1, by omega⟩
  refine ⟨m, h', c', absoluteLoop_pass _ hcur hmem hle hend hnext hto.current hto.stored, ?_,
    (steps_fetchNext hnext).invariant Holding.step hh, hto, rfl⟩
  omega

/-- Over the chunks `via` to the chunk `b`. -/
theorem Holding.walk {via us : List (Block ρ)} {b : Block ρ} (hh : Holding h₀ cols bs h)
    (hcur : h.odbcFetcher.currentChunk = some c) (hmem : c ∈ h.odbcFetcher.chunks)
    (hle : c.size ≤ off) (hend : h.odbcFetcher.resultsetEnd = true → off ≤ c.size)
    (hup : h.upcoming = via ++ b :: us) (hpass : Passes h.odbcFetcher.resultsetEnd off via)
    (hn : off.toNat ≤ n) :
    ∃ m h' c', absoluteLoop (n + 1) h off =
        absoluteLoop (m + 1) h' (off - (via.flatMap Block.rows).length - b.rows.length) ∧
      Holding h₀ cols bs h' ∧ CameTo h c' us h' ∧ c'.block = b := by
  induction via generalizing h c off n with
  | nil =>
    obtain ⟨m, h', c', hloop, -, hh', hto, hb⟩ := hh.turn hcur hmem hle hend hup hn
    exact ⟨m, h', c', by simpa using hloop, hh', hto, hb⟩
  | cons v via ih =>
    obtain ⟨hle', hend', hpass'⟩ := hpass
    obtain ⟨m, h₁, c₁, hloop, hm, hh₁, hto, rfl⟩ := hh.turn hcur hmem hle hend hup hn
    rw [← hto.seen] at hend' hpass'
    obtain ⟨m', h', c', hloop', hh', hto', hb⟩ :=
      ih hh₁ hto.current hto.stored hle' hend' hto.upcoming hpass' hm
    refine ⟨m', h', c', ?_, hh', ⟨hto'.current, hto'.stored, hto'.row, hto'.upcoming,
      hto'.seen.trans hto.seen, ?_⟩, hb⟩
    · rw [hloop, hloop', List.flatMap_cons, List.length_append]
      congr 1
      omega
    · rcases hto'.noted with ⟨-, hsame⟩ | ⟨hopen, hzero⟩
      · rw [hsame]
        exact hto.noted
      · exact .inr ⟨hto.seen.symm.trans hopen, hzero⟩

/-- Past all chunks, where the end was not seen. -/
theorem Holding.walk_end {us : List (Block ρ)} (hh : Holding h₀ cols bs h)
    (hcur : h.odbcFetcher.currentChunk = some c) (hmem : c ∈ h.odbcFetcher.chunks)
    (hle : c.size ≤ off) (hend : h.odbcFetcher.resultsetEnd = false) (hup : h.upcoming = us)
    (hpass : Passes false off us) (hn : off.toNat ≤ n) :
    ∃ h', absoluteLoop (n + 1) h off = .ok (.noData, h') := by
  induction us generalizing h c off n with
  | nil =>
    obtain ⟨h', hnext⟩ := hh.fetchNext_none hend hup
    exact absoluteLoop_end n hcur hmem hle hend hnext
  | cons b us ih =>
    obtain ⟨hle', -, hpass'⟩ := hpass
    obtain ⟨m, h₁, c₁, hloop, hm, hh₁, hto, rfl⟩ :=
      hh.turn hcur hmem hle (by simp [hend]) hup hn
    rw [hloop]
    exact ih hh₁ hto.current hto.stored hle' (hto.seen.trans hend) hto.upcoming hpass' hm

end Walk

/-! ## Scrolling to a row -/

/-- The rowset from the row `j` of the chunk `b` : the row is there, the rowset ends within the
chunk or has none behind it, and a fetch reads the rows one by one. -/
structure RowsetAt (h : OdbcHandleStmt ρ V) (b : Block ρ) (back : List (Block ρ))
    (j : ℕ) : Prop where
  lt : j < b.rows.length
  whole : j + h.rowsetSize ≤ b.rows.length ∨ back = []
  reads : ReadsRows h

/-- No cell of this rowset is noted as read. -/
def RowsetUnread (h : OdbcHandleStmt ρ V) (b : Block ρ) (j : ℕ) : Prop :=
  h.boundCols = [] ∨ h.odbcFetcher.lastFetched.length = 0 ∨ h.odbcFetcher.lastFetched.rowIdx < j ∨
    j + ((b.rows.drop j).take h.rowsetSize).length ≤ h.odbcFetcher.lastFetched.rowIdx

/-- The positions from which `SQL_FETCH_ABSOLUTE` goes to the row `k` of the result in the chunks
`bs`. -/
inductive AbsoluteInStep (bs : List (Block ρ)) (h : OdbcHandleStmt ρ V) : ℤ → Prop
  /-- In front of the first row. -/
  | one {c : DataChunk ρ} {post : List (DataChunk ρ)} {back : List (Block ρ)}
      (hchunks : h.odbcFetcher.chunks = c :: post) (hbs : bs = c.block :: back)
      (hset : RowsetAt h c.block back 0) (hread : RowsetUnread h c.block 0) : AbsoluteInStep bs h 1
  /-- A later row of the first chunk, where that is the current one. -/
  | within {c : DataChunk ρ} {post : List (DataChunk ρ)} {back : List (Block ρ)} {j : ℕ}
      (hchunks : h.odbcFetcher.chunks = c :: post) (hcur : h.odbcFetcher.currentChunk = some c)
      (hbs : bs = c.block :: back) (hj : 0 < j) (hset : RowsetAt h c.block back j)
      (hread : RowsetUnread h c.block j) : AbsoluteInStep bs h (j + 1)
  /-- A row of the upcoming chunk `b`. The offset passes the current chunk and the ones up to `b`,
  and ends below the size of `b`; the chunks up to the index are `front`. -/
  | ahead {c : DataChunk ρ} {front via us back : List (Block ρ)} {b : Block ρ} {j : ℕ} {k : ℤ}
      (hcur : h.odbcFetcher.currentChunk = some c) (hup : h.upcoming = via ++ b :: us)
      (hbs : bs = front ++ (via ++ b :: back))
      (hfront : front.length = h.odbcFetcher.currentChunkIdx + 1)
      (hk : k = (front.flatMap Block.rows).length + (via.flatMap Block.rows).length + j + 1)
      (hpass : c.size ≤ k - 1 ∧ (h.odbcFetcher.resultsetEnd = true → k - 1 ≤ c.size))
      (hvia : Passes h.odbcFetcher.resultsetEnd (k - 1) via)
      (hland : (j = 0 ∧ (front.flatMap Block.rows).length < b.rows.length) ∨
        (0 < j ∧ (front.flatMap Block.rows).length = b.rows.length))
      (hset : RowsetAt h b back j)
      (hread : h.odbcFetcher.resultsetEnd = false ∨ RowsetUnread h b j) :
      AbsoluteInStep bs h k
  /-- Back from the last row, within the last chunk. -/
  | behind {pre : List (DataChunk ρ)} {c : DataChunk ρ} {m : ℕ}
      (hchunks : h.odbcFetcher.chunks = pre ++ [c]) (hcur : h.odbcFetcher.currentChunk = some c)
      (hbs : bs = blocksOf (pre ++ [c]) []) (hrow : h.odbcFetcher.chunkRow + 1 = c.size)
      (hpos : 0 < m) (hlt : m < c.size) (hreads : ReadsRows h)
      (hread : RowsetUnread h c.block (c.size - m)) :
      AbsoluteInStep bs h (-m)
  /-- Past the last row. -/
  | past {c : DataChunk ρ} {k : ℤ} (hk : (bs.flatMap Block.rows).length < k)
      (hcur : h.odbcFetcher.currentChunk = some c)
      (hpass : if h.odbcFetcher.resultsetEnd = true then c.size < k - 1
        else Passes false (k - 1) h.upcoming) : AbsoluteInStep bs h k

/-- A reply with the rowset behind the first `i` rows. -/
def RowsetReply (rows : List ρ) (n i : ℕ) (r : Reply ρ V) : Prop :=
  r.ret.succeeded = true ∧ r.rows = (rows.drop i).take n

/-- `SQLFetchScroll(SQL_FETCH_ABSOLUTE, k)` goes to the row `k` of the rows : the first row is the
next one behind `k = 1`, a negative `k` counts from the end, and no row is behind the last one. -/
def ScrollsTo (E : Engine ρ V) (rows : List ρ) (h : OdbcHandleStmt ρ V) (k : ℤ) : Prop :=
  ∃ r, h.sqlFetchScroll E .absolute k = .ok r ∧
    (k = 1 → rows ≠ [] → r.ret.succeeded = true ∧ r.rows = [] ∧
      ∃ r', r.h.sqlFetchScroll E .next 0 = .ok r' ∧ RowsetReply rows h.rowsetSize 0 r') ∧
    (2 ≤ k → k ≤ rows.length → RowsetReply rows h.rowsetSize (k - 1).toNat r) ∧
    (-rows.length ≤ k → k ≤ -1 → RowsetReply rows h.rowsetSize (rows.length + k).toNat r) ∧
    (rows.length < k → r.ret = .noData ∧ r.rows = [])

/-- A rowset that its chunk holds whole is the one of the result. -/
theorem take_drop_of_whole (front : List (Block ρ)) {back : List (Block ρ)} {b : Block ρ} {j n : ℕ}
    (hj : j < b.rows.length) (hwhole : j + n ≤ b.rows.length ∨ back = []) :
    (((front ++ b :: back).flatMap Block.rows).drop
      ((front.flatMap Block.rows).length + j)).take n = (b.rows.drop j).take n := by
  rw [List.flatMap_append, List.flatMap_cons, ← List.drop_drop, List.drop_left,
    List.drop_append_of_le_length (Nat.le_of_lt hj)]
  rcases hwhole with hle | rfl
  · exact List.take_append_of_le_length (by rw [List.length_drop]; omega)
  · rw [List.flatMap_nil, List.append_nil]

section Reply

variable {E : Engine ρ V} {h₀ h h₁ : OdbcHandleStmt ρ V} {cols : ℕ} {bs : List (Block ρ)}
  {c : DataChunk ρ} {o : FetchOrientation} {off : ℤ}

/-- Along a run the cells that the scan reads stay readable. -/
theorem ScanReady.readable {result : QueryResult ρ} (hx : ScanReady E h₀ result)
    (hs : SameBindings h₀ h) (hreads : ReadsRows h) :
    Readable E h result.columnCount result.pending := by
  refine Readable.of_same ?_ hs (List.Subset.refl _)
  have hreads₀ : ReadsRows h₀ := by
    unfold ReadsRows at hreads ⊢
    rwa [hs.2.1, hs.rowsetSize] at hreads
  by_cases hb : h₀.boundCols = []
  · exact .inr ⟨hb, hreads₀.resolve_left (by simpa using hb)⟩
  · exact .inl ⟨hx.bindings hb, hx.converts⟩

/-- The reply of a fetch. -/
def replyTo (d : Delivery ρ V) : Reply ρ V :=
  { ret := d.ret, h := d.h, rows := d.rows, writes := d.writes }

/-- `SQLFetchScroll` of a result that is there. -/
theorem Holding.scroll_eq (hh : Holding h₀ cols bs h) (ho : o ≠ .other) :
    h.sqlFetchScroll E o off =
      (h.convertHSTMT.fetchStmtResult E o (off - 1)).map replyTo := by
  unfold OdbcHandleStmt.sqlFetchScroll
  rw [if_neg ho, hh.convertHSTMTResult]
  dsimp only [bind, Except.bind]
  cases h.convertHSTMT.fetchStmtResult E o (off - 1) <;> rfl

/-- A move in front of the row `j` of a stored chunk : the rowset from there. -/
theorem Holding.scroll_rowset (hh : Holding h₀ cols bs h) (ho : o ≠ .other)
    (hmove : h.convertHSTMT.fetchNextChunk o (off - 1) = .ok (.success, h₁))
    (hr : Readable E h cols bs) (hcur : h₁.odbcFetcher.currentChunk = some c)
    (hmem : c ∈ h₁.odbcFetcher.chunks) {j : ℕ} (hj : j < c.size)
    (hrow : h₁.odbcFetcher.chunkRow = j - 1)
    (hread : h₁.boundCols = [] ∨ h₁.Unread ((c.rows.drop j).take h.rowsetSize).length) :
    ∃ r, h.sqlFetchScroll E o off = .ok r ∧ r.ret.succeeded = true ∧
      r.rows = (c.rows.drop j).take h.rowsetSize := by
  have hh₁ := (steps_fetchNextChunk hmove).invariant Holding.step hh.convertHSTMT
  have hs := (moved_fetchNextChunk hmove).sameBindings
  have hfirst : h₁.firstRow = j := by
    have := firstRow_of_low hh₁.low
    omega
  have hset : h₁.rowset c = (c.rows.drop j).take h.rowsetSize := by
    rw [rowset, hfirst, hs.rowsetSize]
    rfl
  have hsub : c.block ∈ bs := by
    obtain ⟨res, -, -, -, -, hblocks, -⟩ := hh₁.res
    rw [← hblocks]
    exact List.mem_append_left _ (List.mem_map_of_mem hmem)
  have hr₁ : Readable E h₁ cols [c.block] := by
    refine hr.of_same hs fun b hb => ?_
    rw [List.mem_singleton.1 hb]
    exact hsub
  rw [← hset] at hread
  obtain ⟨d, hd, hdel, -⟩ := deliver_readable (OdbcFetch.deref_eq_ok hcur hmem) hh₁.low (by omega)
    hread (hh₁.columns c hmem) hr₁
  refine ⟨replyTo d, ?_, hdel.1, hdel.2.1.trans hset⟩
  rw [hh.scroll_eq ho, fetchStmtResult_of_open hh.convertHSTMT.opened hmove]
  dsimp only
  rw [hd]
  rfl

/-- A static cursor looks for the row from chunk to chunk. -/
theorem fetchNextChunk_absolute (hcur : h.odbcFetcher.cursorType ≠ .forwardOnly) (off : ℤ) :
    h.fetchNextChunk .absolute off = absoluteLoop (off.toNat + 1) h off := by
  unfold fetchNextChunk setAbsoluteCurrentChunk
  rw [if_neg (by simp [hcur])]

/-- The noted cell is in none of the rows from `j` on that are delivered. -/
theorem RowsetUnread.unread (hread : RowsetUnread h c.block j)
    (hb : h₁.boundCols = h.boundCols)
    (hnoted : h₁.odbcFetcher.lastFetched = h.odbcFetcher.lastFetched)
    (hrow : h₁.odbcFetcher.chunkRow = j - 1) :
    h₁.boundCols = [] ∨ h₁.Unread ((c.rows.drop j).take h.rowsetSize).length := by
  rcases hread with hempty | hzero | hlt | hge
  · exact .inl (hb.trans hempty)
  · exact .inr (.inl (by rw [hnoted]; exact hzero))
  · exact .inr (.inr (.inl (by rw [hnoted]; omega)))
  · refine .inr (.inr (.inr ?_))
    rw [hnoted]
    have hrows : c.rows = c.block.rows := rfl
    rw [hrows]
    omega

/-- A move that finds no row, or goes in front of the first one. -/
theorem Holding.scroll_none (hh : Holding h₀ cols bs h) (ho : o ≠ .other) {ret : SqlReturn}
    (hret : ret = .noData ∨ ret = .fetchBeforeStart)
    (hmove : h.convertHSTMT.fetchNextChunk o (off - 1) = .ok (ret, h₁)) :
    h.sqlFetchScroll E o off =
      .ok { ret := if ret = .noData then .noData else .success, h := h₁ } := by
  rw [hh.scroll_eq ho, fetchStmtResult_of_open hh.convertHSTMT.opened hmove]
  rcases hret with rfl | rfl <;> rfl

end Reply

section Cases

variable {E : Engine ρ V} {h₀ h : OdbcHandleStmt ρ V} {cols : ℕ} {bs back : List (Block ρ)}
  {c : DataChunk ρ}

/-- `SQL_FETCH_NEXT` in front of the first row. -/
theorem Holding.next_of_front (hh : Holding h₀ cols bs h) (hr : Readable E h cols bs)
    {post : List (DataChunk ρ)} (hchunks : h.odbcFetcher.chunks = c :: post)
    (hcur : h.odbcFetcher.currentChunk = some c) (hrow : h.odbcFetcher.chunkRow = -1)
    (hbs : bs = c.block :: back) (hset : RowsetAt h c.block back 0)
    (hread : RowsetUnread h c.block 0) :
    ∃ r, h.sqlFetchScroll E .next 0 = .ok r ∧
    RowsetReply (bs.flatMap Block.rows) h.rowsetSize 0 r := by
  -- no chunk is so short that its end is in front of the first row
  have hreq : ¬h.convertHSTMT.odbcFetcher.requireFetch = true := by
    obtain ⟨last, hlast⟩ : ∃ last, h.convertHSTMT.odbcFetcher.chunks.getLast? = some last :=
      ⟨_, (congrArg List.getLast? hchunks).trans
        (List.getLast?_eq_some_getLast (List.cons_ne_nil c post))⟩
    have hrow' : h.convertHSTMT.odbcFetcher.chunkRow = -1 := hrow
    have := last.size_pos
    rw [requireFetch_iff hlast]
    omega
  have hnext : h.convertHSTMT.fetchNextChunk .next (0 - 1) =
    .ok (.success, h.convertHSTMT.noted) := by
    rw [fetchNextChunk_next, if_neg hreq]
  have hmem : c ∈ h.odbcFetcher.chunks := by simp [hchunks]
  obtain ⟨r, hr, hsucc, hrows⟩ := hh.scroll_rowset (by simp) hnext hr hcur hmem hset.lt hrow
    (hread.unread rfl rfl hrow)
  have hwhole := take_drop_of_whole [] hset.lt hset.whole
  refine ⟨r, hr, hsucc, hrows.trans ?_⟩
  rw [hbs]
  exact hwhole.symm

/-- In front of the first row. -/
theorem Holding.scrollsTo_one (hh : Holding h₀ cols bs h) (hr : Readable E h cols bs)
    {post : List (DataChunk ρ)} (hchunks : h.odbcFetcher.chunks = c :: post)
    (hbs : bs = c.block :: back) (hset : RowsetAt h c.block back 0)
    (hread : RowsetUnread h c.block 0) : ScrollsTo E (bs.flatMap Block.rows) h 1 := by
  obtain ⟨c₀, hcur⟩ := Option.isSome_iff_exists.1 (hh.current (by simp [hchunks]))
  have hmem := hh.stored c₀ hcur
  obtain ⟨h₁, hfront⟩ : ∃ h₁, h₁ = h.convertHSTMT.beforeStart.2 := ⟨_, rfl⟩
  have hmove : h.convertHSTMT.fetchNextChunk .absolute (1 - 1) = .ok (.fetchBeforeStart, h₁) := by
    rw [fetchNextChunk_absolute (h := h.convertHSTMT) hh.cursorType, hfront]
    exact absoluteLoop_zero (h := h.convertHSTMT) _ hcur hmem rfl
  have hscroll := hh.scroll_none (E := E) (by simp) (.inr rfl) hmove
  have hchunks₁ : h₁.odbcFetcher.chunks = c :: post := by rw [hfront]; exact hchunks
  have hcur₁ : h₁.odbcFetcher.currentChunk = some c := by
    rw [hfront]
    simp [beforeStart, OdbcHandleStmt.convertHSTMT, hchunks]
  have hs : SameBindings h h₁ := by rw [hfront]; exact ⟨rfl, rfl, rfl, rfl⟩
  obtain ⟨r, hnext, hrowset⟩ := (hh.sqlFetchScroll hscroll).next_of_front
    (hr.of_same hs (List.Subset.refl _)) hchunks₁ hcur₁ (by rw [hfront]; rfl) hbs
    (by rw [hfront]; exact ⟨hset.lt, hset.whole, hset.reads⟩) (by rw [hfront]; exact hread)
  have hlen : 0 < (bs.flatMap Block.rows).length := by
    have hlt := hset.lt
    rw [hbs, List.flatMap_cons, List.length_append]
    omega
  refine ⟨_, hscroll, fun _ _ => ⟨rfl, rfl, r, hnext, ?_⟩, by omega, by omega, by omega⟩
  rwa [hs.rowsetSize] at hrowset

/-- A later row of the first chunk. -/
theorem Holding.scrollsTo_within (hh : Holding h₀ cols bs h) (hr : Readable E h cols bs)
    {post : List (DataChunk ρ)} {j : ℕ} (hchunks : h.odbcFetcher.chunks = c :: post)
    (hcur : h.odbcFetcher.currentChunk = some c) (hbs : bs = c.block :: back) (hj : 0 < j)
    (hset : RowsetAt h c.block back j) (hread : RowsetUnread h c.block j) :
    ScrollsTo E (bs.flatMap Block.rows) h (j + 1) := by
  have hmem : c ∈ h.odbcFetcher.chunks := by simp [hchunks]
  have hlt : j < c.size := hset.lt
  have hmove : h.convertHSTMT.fetchNextChunk .absolute ((j + 1 : ℤ) - 1) =
      .ok (.success, h.convertHSTMT.setRow (j - 1)) := by
    rw [fetchNextChunk_absolute (h := h.convertHSTMT) hh.cursorType, Int.add_sub_cancel]
    exact absoluteLoop_row (h := h.convertHSTMT) _ hcur hmem (by omega) (by omega)
  obtain ⟨r, hscroll, hsucc, hrows⟩ := hh.scroll_rowset (by simp) hmove hr hcur hmem hlt rfl
    (hread.unread rfl rfl rfl)
  have hlen : j < (bs.flatMap Block.rows).length := by
    have hlt := hset.lt
    rw [hbs, List.flatMap_cons, List.length_append]
    omega
  have hwhole := take_drop_of_whole [] hset.lt hset.whole
  refine ⟨r, hscroll, by omega, fun _ _ => ⟨hsucc, ?_⟩, by omega, by omega⟩
  rw [hrows, hbs, Int.add_sub_cancel, Int.toNat_natCast]
  simpa [DataChunk.rows] using hwhole.symm

/-- Back from the last row. -/
theorem Holding.scrollsTo_behind (hh : Holding h₀ cols bs h) (hr : Readable E h cols bs)
    {pre : List (DataChunk ρ)} {m : ℕ} (hchunks : h.odbcFetcher.chunks = pre ++ [c])
    (hcur : h.odbcFetcher.currentChunk = some c) (hbs : bs = blocksOf (pre ++ [c]) [])
    (hrow : h.odbcFetcher.chunkRow + 1 = c.size) (hpos : 0 < m) (hlt : m < c.size)
    (hread : RowsetUnread h c.block (c.size - m)) :
    ScrollsTo E (bs.flatMap Block.rows) h (-m) := by
  have hmem : c ∈ h.odbcFetcher.chunks := by simp [hchunks]
  have hj : c.size - m < c.size := by omega
  have hmax : max (-1) (h.odbcFetcher.chunkRow + (-(m : ℤ) - 1) + 1) =
    ((c.size - m : ℕ) : ℤ) - 1 := by
    omega
  have hmove : h.convertHSTMT.fetchNextChunk .absolute (-m - 1) =
      .ok (.success, h.convertHSTMT.setRow ((c.size - m : ℕ) - 1)) := by
    rw [fetchNextChunk_absolute (h := h.convertHSTMT) hh.cursorType, ← hmax]
    exact absoluteLoop_back (h := h.convertHSTMT) _ hcur hmem (by omega) (by omega)
  obtain ⟨r, hscroll, hsucc, hrows⟩ := hh.scroll_rowset (by simp) hmove hr hcur hmem hj rfl
    (hread.unread rfl rfl rfl)
  have hbs' : bs = pre.map DataChunk.block ++ c.block :: [] := by
    rw [hbs]
    simp [blocksOf]
  have hlen : (bs.flatMap Block.rows).length =
      ((pre.map DataChunk.block).flatMap Block.rows).length + c.size := by
    rw [hbs', List.flatMap_append, List.length_append]
    simp [DataChunk.size, DataChunk.rows]
  have hwhole := take_drop_of_whole (pre.map DataChunk.block) (n := h.rowsetSize) (b := c.block) hj
    (.inr rfl)
  refine ⟨r, hscroll, by omega, by omega, fun _ _ => ⟨hsucc, ?_⟩, by omega⟩
  have hnat : (((bs.flatMap Block.rows).length : ℤ) + -m).toNat =
      ((pre.map DataChunk.block).flatMap Block.rows).length + (c.size - m) := by omega
  rw [hrows, hnat, hbs']
  exact hwhole.symm

/-- Past the last row. -/
theorem Holding.scrollsTo_past (hh : Holding h₀ cols bs h) {k : ℤ}
    (hk : (bs.flatMap Block.rows).length < k) (hcur : h.odbcFetcher.currentChunk = some c)
    (hmem : c ∈ h.odbcFetcher.chunks)
    (hpass : if h.odbcFetcher.resultsetEnd = true then c.size < k - 1
      else Passes false (k - 1) h.upcoming) : ScrollsTo E (bs.flatMap Block.rows) h k := by
  have hle : c.size ≤ (bs.flatMap Block.rows).length := by
    obtain ⟨res, -, -, -, -, hblocks, -⟩ := hh.res
    have hsub : c.block ∈ bs := by
      rw [← hblocks]
      exact List.mem_append_left _ (List.mem_map_of_mem hmem)
    obtain ⟨front, back, rfl⟩ := List.append_of_mem hsub
    simp only [List.flatMap_append, List.flatMap_cons, List.length_append, DataChunk.size,
      DataChunk.rows]
    omega
  have hsize := c.size_pos
  obtain ⟨h₁, hmove⟩ :
    ∃ h₁, h.convertHSTMT.fetchNextChunk .absolute (k - 1) = .ok (.noData, h₁) := by
    rw [fetchNextChunk_absolute (h := h.convertHSTMT) hh.cursorType]
    cases hend : h.odbcFetcher.resultsetEnd with
    | true =>
      rw [if_pos hend] at hpass
      exact ⟨_, absoluteLoop_past (h := h.convertHSTMT) _ hcur hmem hend hpass⟩
    | false =>
      rw [if_neg (by simp [hend])] at hpass
      exact hh.convertHSTMT.walk_end hcur hmem (by omega) hend rfl hpass (Nat.le_refl _)
  have hscroll := hh.scroll_none (E := E) (by simp) (.inl rfl) hmove
  exact ⟨_, hscroll, by omega, by omega, by omega, fun _ => ⟨rfl, rfl⟩⟩

/-- The end of the walk : what is left of the offset is negative and leads to the first row, or is
the number of the row. -/
theorem absoluteLoop_land {h : OdbcHandleStmt ρ V} {c : DataChunk ρ} {j : ℕ} (n : ℕ) (off : ℤ)
    (hcur : h.odbcFetcher.currentChunk = some c) (hmem : c ∈ h.odbcFetcher.chunks)
    (hrow : h.odbcFetcher.chunkRow = -1) (hlt : j < c.size)
    (hland : (j = 0 ∧ -c.size ≤ off ∧ off < 0) ∨ (0 < j ∧ off = j)) :
    absoluteLoop (n + 1) h off = .ok (.success, h.setRow (j - 1)) := by
  rcases hland with ⟨rfl, hge, hneg⟩ | ⟨hpos, rfl⟩
  · have hmax : max (-1) (h.odbcFetcher.chunkRow + off + 1) = ((0 : ℕ) : ℤ) - 1 := by omega
    rw [← hmax]
    exact absoluteLoop_back n hcur hmem hneg (by omega)
  · exact absoluteLoop_row n hcur hmem (by omega) (by omega)

/-- A row of an upcoming chunk. -/
theorem Holding.scrollsTo_ahead (hh : Holding h₀ cols bs h) (hr : Readable E h cols bs)
    {front via us : List (Block ρ)} {b : Block ρ} {j : ℕ} {k : ℤ}
    (hcur : h.odbcFetcher.currentChunk = some c) (hmem : c ∈ h.odbcFetcher.chunks)
    (hup : h.upcoming = via ++ b :: us) (hbs : bs = front ++ (via ++ b :: back))
    (hk : k = (front.flatMap Block.rows).length + (via.flatMap Block.rows).length + j + 1)
    (hpass : c.size ≤ k - 1 ∧ (h.odbcFetcher.resultsetEnd = true → k - 1 ≤ c.size))
    (hvia : Passes h.odbcFetcher.resultsetEnd (k - 1) via)
    (hland : (j = 0 ∧ (front.flatMap Block.rows).length < b.rows.length) ∨
      (0 < j ∧ (front.flatMap Block.rows).length = b.rows.length))
    (hset : RowsetAt h b back j)
    (hread : h.odbcFetcher.resultsetEnd = false ∨ RowsetUnread h b j) :
    ScrollsTo E (bs.flatMap Block.rows) h k := by
  obtain ⟨n, h₁, c₁, hloop, hh₁, hto, rfl⟩ :=
    hh.convertHSTMT.walk hcur hmem hpass.1 hpass.2 hup hvia
    (Nat.le_refl _)
  have hpos := c.size_pos
  have hlt : j < c₁.size := hset.lt
  have hsize : c₁.block.rows.length = c₁.size := rfl
  have hturn := absoluteLoop_land n (k - 1 - (via.flatMap Block.rows).length - c₁.block.rows.length)
    hto.current hto.stored hto.row hlt (by omega)
  have hmove : h.convertHSTMT.fetchNextChunk .absolute (k - 1) =
    .ok (.success, h₁.setRow (j - 1)) := by
    rw [fetchNextChunk_absolute (h := h.convertHSTMT) hh.cursorType, hloop, hturn]
  have hs := (moved_fetchNextChunk hmove).sameBindings
  have hunread : (h₁.setRow (j - 1)).boundCols = [] ∨
      (h₁.setRow (j - 1)).Unread ((c₁.rows.drop j).take h.rowsetSize).length := by
    rcases hto.noted with ⟨hend, hsame⟩ | ⟨-, hzero⟩
    · have hread := hread.resolve_left (by rw [← Bool.not_eq_true]; exact not_not_intro hend)
      exact hread.unread hs.2.1 hsame rfl
    · exact .inr (.inl hzero)
  obtain ⟨r, hscroll, hsucc, hrows⟩ :=
    hh.scroll_rowset (by simp) hmove hr hto.current hto.stored hlt rfl
    hunread
  have hwhole := take_drop_of_whole (front ++ via) hset.lt hset.whole
  have hsplit : bs = front ++ via ++ c₁.block :: back := by rw [hbs, List.append_assoc]
  have hlen : (bs.flatMap Block.rows).length = (front.flatMap Block.rows).length +
      (via.flatMap Block.rows).length + c₁.size + (back.flatMap Block.rows).length := by
    rw [hsplit]
    simp only [List.flatMap_append, List.flatMap_cons, List.length_append, hsize]
    omega
  have hnat : (k - 1).toNat = ((front ++ via).flatMap Block.rows).length + j := by
    rw [List.flatMap_append, List.length_append]
    omega
  refine ⟨r, hscroll, by omega, fun _ _ => ⟨hsucc, ?_⟩, by omega, by omega⟩
  rw [hrows, hnat, hsplit]
  exact hwhole.symm

end Cases

/-- In every state that fetches lead to after an execution, from a position in step for `k`,
`SQLFetchScroll(SQL_FETCH_ABSOLUTE, k)` goes to the row `k`, whatever the chunks are. -/
theorem absolute_scrollsTo (E : Engine ρ V) {h h' : OdbcHandleStmt ρ V} {result : QueryResult ρ}
    (hx : ScanReady E h result) (hcur : h.odbcFetcher.cursorType ≠ .forwardOnly)
    {calls : List (FetchCall ρ V)} {replies : List (Reply ρ V)}
    (hrun : Run.outputs (fetchCallStep E) h calls = .ok (replies, h')) {k : ℤ}
    (hok : AbsoluteInStep result.pending h' k) :
    ScrollsTo E (result.pending.flatMap Block.rows) h' k := by
  have hh : Holding h result.columnCount result.pending h' := by
    obtain ⟨n, a, h₀, x, hexec, hret, hresult, hbound⟩ := hx.run
    exact (holding_of_execute hexec hret hresult hx.failure hbound hcur).outputs hrun
  cases hok with
  | one hchunks hbs hset hread =>
    exact hh.scrollsTo_one (hx.readable hh.same hset.reads) hchunks hbs hset hread
  | within hchunks hcur' hbs hj hset hread =>
    exact hh.scrollsTo_within (hx.readable hh.same hset.reads) hchunks hcur' hbs hj hset hread
  | ahead hcur' hup hbs hfront hk hpass hvia hland hset hread =>
    exact hh.scrollsTo_ahead (hx.readable hh.same hset.reads) hcur' (hh.stored _ hcur') hup
      hbs hk hpass
      hvia hland hset hread
  | behind hchunks hcur' hbs hrow hpos hlt hreads hread =>
    exact hh.scrollsTo_behind (hx.readable hh.same hreads) hchunks hcur' hbs hrow hpos hlt hread
  | past hk hcur' hpass => exact hh.scrollsTo_past hk hcur' (hh.stored _ hcur') hpass

/-- Chunks of one row and two rows : from the first row to the second one. -/
theorem absolute_scrollsTo_second :
    ScrollsTo byteEngine [1, 2, 3]
      (scrollBytes ⟨[1], by simp⟩ [⟨[2, 3], by simp⟩] 0 (-1) 1 false) 2 := by
  have hup : (scrollBytes ⟨[1], by simp⟩ [⟨[2, 3], by simp⟩] 0 (-1) 1 false).upcoming =
      [] ++ ⟨[2, 3], by simp⟩ :: [] := rfl
  have hbs : (queryResult 1 [⟨[1], by simp⟩, ⟨[2, 3], by simp⟩]).pending =
      [⟨[1], by simp⟩] ++ ([] ++ (⟨[2, 3], by simp⟩ : Block ℕ) :: []) := rfl
  obtain ⟨replies, hrun⟩ : ∃ replies, Run.outputs (fetchCallStep byteEngine)
      (scrollBytes ⟨[1], by simp⟩ [⟨[2, 3], by simp⟩] (-1) (-1) 0 false) [.scroll .next 0] =
        .ok (replies, scrollBytes ⟨[1], by simp⟩ [⟨[2, 3], by simp⟩] 0 (-1) 1 false) := ⟨_, rfl⟩
  exact absolute_scrollsTo byteEngine (scrollBytes_scanReady _ _) (by decide) hrun
    (.ahead (j := 0) rfl hup hbs rfl rfl ⟨by decide, nofun⟩ trivial (.inl ⟨rfl, by decide⟩)
      ⟨by decide, .inr rfl, .inr rfl⟩ (.inl rfl))

/-- From in front of these rows, the third one is not found : the offset that is left after the
second chunk is taken for the one in front of the first row. -/
theorem third_row_not_found :
    ScanReady byteEngine (scrollBytes ⟨[1], by simp⟩ [⟨[2, 3], by simp⟩] (-1) (-1) 0 false)
        (queryResult 1 [⟨[1], by simp⟩, ⟨[2, 3], by simp⟩]) ∧
      ¬ScrollsTo byteEngine [1, 2, 3]
        (scrollBytes ⟨[1], by simp⟩ [⟨[2, 3], by simp⟩] (-1) (-1) 0 false) 3 := by
  refine ⟨scrollBytes_scanReady _ _, ?_⟩
  rintro ⟨r, hr, -, hrow, -⟩
  obtain ⟨-, hrows⟩ := hrow (by decide) (by decide)
  cases hr
  exact absurd hrows (by decide)

end OdbcHandleStmt

end HaybarnOdbc
