import Mathlib.Logic.Relation
import HaybarnOdbc.Lib.DoWhile
import HaybarnOdbc.Lib.Outcome
import HaybarnOdbc.Handle

/-!
# The cursor

How `OdbcFetch` moves over a result set : `FetchNext` takes a chunk from the engine while
the end was not seen and then makes a stored chunk the current one, `FetchNextChunk`
dispatches on the orientation of a fetch, and `Materialize` runs `FetchNext` until it
fails and goes back to where the cursor was.

A position is the current chunk with the number of its last row that was delivered,
`chunkRow`, which is `-1` in front of the first row. The functions that call `FetchNext`
follow `hstmt->res`, and the ones that read `current_chunk` follow that pointer, so they
return a fault where the source would dereference a null or stale pointer.
-/

namespace HaybarnOdbc

variable {ρ V : Type}

namespace OdbcHandleStmt

/-- Put the cursor in front of the stored chunk `c`, number `idx`. -/
def seat (h : OdbcHandleStmt ρ V) (idx : ℕ) (c : DataChunk ρ) : OdbcHandleStmt ρ V :=
  { h with
    odbcFetcher.currentChunkIdx := idx
    odbcFetcher.currentChunk := some c
    odbcFetcher.chunkRow := -1
    odbcFetcher.priorChunkRow := -1 }

/-- `SetCurrentChunk`. A cursor that is not forward-only steps to the next stored chunk if
there is one; otherwise the last stored chunk becomes the current one. -/
def setCurrentChunk (h : OdbcHandleStmt ρ V) : SqlReturn × OdbcHandleStmt ρ V :=
  let f := h.odbcFetcher
  match f.chunks.getLast? with
  | none => (.noData, h)
  | some last =>
    match f.chunks[f.currentChunkIdx + 1]? with
    | some c =>
      if f.cursorType = .forwardOnly then (.success, h.seat (f.chunks.length - 1) last)
      else (.success, h.seat (f.currentChunkIdx + 1) c)
    | none => (.success, h.seat (f.chunks.length - 1) last)

/-- Store a chunk that the engine handed over; a forward-only cursor holds one chunk at a
time. -/
def storeChunk (h : OdbcHandleStmt ρ V) (res : QueryResult ρ) (c : DataChunk ρ) :
    OdbcHandleStmt ρ V :=
  { h with
    res := some res
    odbcFetcher.chunks :=
      if h.odbcFetcher.cursorType = .forwardOnly then [c] else h.odbcFetcher.chunks ++ [c] }

/-- `FetchNext`. -/
def fetchNext (h : OdbcHandleStmt ρ V) : Except Fault (SqlReturn × OdbcHandleStmt ρ V) :=
  if h.odbcFetcher.resultsetEnd then .ok h.setCurrentChunk
  else
    match h.res with
    | none => .error .nullRes
    | some res =>
      let h := { h with odbcFetcher := h.odbcFetcher.resetLastFetchedVariableVal }
      match res.fetch with
      | (.error msg, res) =>
        .ok ({ h with opened := false, res := some res }.setDiagnosticRecord .error "FetchNext" msg
          .stHY000)
      | (.done, res) =>
        .ok (.noData, { h with res := some res, odbcFetcher.resultsetEnd := true })
      | (.chunk c, res) => .ok (h.storeChunk res c).setCurrentChunk

/-- Without stored chunks there is none to go to. -/
theorem setCurrentChunk_of_empty {h : OdbcHandleStmt ρ V} (he : h.odbcFetcher.chunks = []) :
    h.setCurrentChunk = (.noData, h) := by
  simp [setCurrentChunk, he]

/-- With a stored chunk, `SetCurrentChunk` succeeds and seats the cursor in front of one. -/
theorem setCurrentChunk_of_ne {h : OdbcHandleStmt ρ V} (hne : h.odbcFetcher.chunks ≠ []) :
    ∃ idx c, h.odbcFetcher.chunks[idx]? = some c ∧
      h.setCurrentChunk = (.success, h.seat idx c) := by
  have hlast := List.getLast?_eq_some_getLast hne
  have hidx : h.odbcFetcher.chunks[h.odbcFetcher.chunks.length - 1]? =
      some (h.odbcFetcher.chunks.getLast hne) := by
    rw [← List.getLast?_eq_getElem?, hlast]
  unfold setCurrentChunk
  simp only [hlast]
  split
  · next c hc =>
    split
    · exact ⟨_, _, hidx, rfl⟩
    · exact ⟨_, _, hc, rfl⟩
  · exact ⟨_, _, hidx, rfl⟩

section FetchNext

variable {h : OdbcHandleStmt ρ V} {res : QueryResult ρ}

/-- At the end of the result `FetchNext` goes to the next stored chunk. -/
theorem fetchNext_of_end (hend : h.odbcFetcher.resultsetEnd = true) :
    h.fetchNext = .ok h.setCurrentChunk := by
  simp [fetchNext, hend]

/-- The chunk of the engine is stored and the cursor goes on. -/
theorem fetchNext_of_pending (hend : h.odbcFetcher.resultsetEnd = false) (hres : h.res = some res)
    {b : Block ρ} {bs : List (Block ρ)} (hp : res.pending = b :: bs) :
    h.fetchNext = .ok (
      ({ h with odbcFetcher := h.odbcFetcher.resetLastFetchedVariableVal }).storeChunk
        { res with pending := bs, fetched := res.fetched + 1 }
        ⟨res.fetched, res.columnCount, b⟩).setCurrentChunk := by
  simp [fetchNext, hend, hres, QueryResult.fetch, hp]

/-- The engine has no more chunks. -/
theorem fetchNext_of_done (hend : h.odbcFetcher.resultsetEnd = false) (hres : h.res = some res)
    (hp : res.pending = []) (hf : res.failure = none) :
    h.fetchNext = .ok (.noData, { h with odbcFetcher :=
      { h.odbcFetcher.resetLastFetchedVariableVal with resultsetEnd := true } }) := by
  simp [fetchNext, hend, hres, QueryResult.fetch, hp, hf]

/-- The engine fails, and the result is closed. -/
theorem fetchNext_of_failure (hend : h.odbcFetcher.resultsetEnd = false) (hres : h.res = some res)
    (hp : res.pending = []) {msg : String} (hf : res.failure = some msg) :
    h.fetchNext = .ok ({ h with
      odbcFetcher := h.odbcFetcher.resetLastFetchedVariableVal
      opened := false
      res := some { res with error := some msg } }.setDiagnosticRecord .error "FetchNext" msg
        .stHY000) := by
  simp [fetchNext, hend, hres, QueryResult.fetch, hp, hf]

/-- The handle on the chunk `b` that was taken from the engine, with `bs` left there. -/
def onTaken (h : OdbcHandleStmt ρ V) (res : QueryResult ρ) (b : Block ρ) (bs : List (Block ρ)) :
    OdbcHandleStmt ρ V :=
  let c : DataChunk ρ := ⟨res.fetched, res.columnCount, b⟩
  let stored :=
    if h.odbcFetcher.cursorType = .forwardOnly then [c] else h.odbcFetcher.chunks ++ [c]
  { h with
    res := some { res with pending := bs, fetched := res.fetched + 1 }
    odbcFetcher :=
      { h.odbcFetcher with
        lastFetched := ⟨-1, -1, 0⟩
        chunks := stored
        currentChunkIdx := stored.length - 1
        currentChunk := some c
        chunkRow := -1
        priorChunkRow := -1 } }

/-- A chunk taken from the engine behind the last stored one becomes the current one. -/
theorem fetchNext_onTaken (hend : h.odbcFetcher.resultsetEnd = false) (hres : h.res = some res)
    {b : Block ρ} {bs : List (Block ρ)} (hp : res.pending = b :: bs)
    (hidx : h.odbcFetcher.chunks.length ≤ h.odbcFetcher.currentChunkIdx + 1) :
    h.fetchNext = .ok (.success, h.onTaken res b bs) := by
  rw [fetchNext_of_pending hend hres hp]
  unfold setCurrentChunk storeChunk onTaken
  by_cases hfwd : h.odbcFetcher.cursorType = .forwardOnly
  · simp [OdbcFetch.resetLastFetchedVariableVal, hfwd, seat]
  · simp only [OdbcFetch.resetLastFetchedVariableVal, hfwd, if_false, List.getLast?_concat,
      List.length_append, List.length_singleton, Nat.add_sub_cancel]
    rcases Nat.eq_or_lt_of_le hidx with heq | hlt
    · rw [← heq, List.getElem?_concat_length]
      rfl
    · rw [List.getElem?_eq_none (by simp; omega)]
      rfl

end FetchNext

/-- `SetPriorCurrentChunk`. -/
def setPriorCurrentChunk (h : OdbcHandleStmt ρ V) :
    Except Fault (SqlReturn × OdbcHandleStmt ρ V) :=
  let f := h.odbcFetcher
  let prior := f.priorChunkRow - h.rowsetSize
  if prior < -1 then
    match f.currentChunkIdx with
    | 0 =>
      .ok (.noData, { h with odbcFetcher.priorChunkRow := prior, odbcFetcher.chunkRow := -1 })
    | idx + 1 =>
      match f.chunks[idx]? with
      | none => .error .outOfRange
      | some c =>
        let prior := max (-1) ((c.size : ℤ) - h.rowsetSize - 1)
        .ok (.success, { h with
          odbcFetcher.currentChunkIdx := idx
          odbcFetcher.currentChunk := some c
          odbcFetcher.priorChunkRow := prior
          odbcFetcher.chunkRow := prior })
  else
    .ok (.success, { h with odbcFetcher.priorChunkRow := prior, odbcFetcher.chunkRow := prior })

/-- `BeforeStart`. -/
def beforeStart (h : OdbcHandleStmt ρ V) : SqlReturn × OdbcHandleStmt ρ V :=
  (.fetchBeforeStart, { h with
    odbcFetcher.currentChunk := h.odbcFetcher.chunks.head?.or h.odbcFetcher.currentChunk
    odbcFetcher.currentChunkIdx := 0
    odbcFetcher.chunkRow := -1
    odbcFetcher.priorChunkRow := -1 })

/-- Put the cursor behind row `row` of the current chunk. -/
def setRow (h : OdbcHandleStmt ρ V) (row : ℤ) : OdbcHandleStmt ρ V :=
  { h with odbcFetcher.chunkRow := row, odbcFetcher.priorChunkRow := row }

/-- The first step of `SetAbsoluteCurrentChunk` : without a current chunk it fetches one,
and does not look at the code it gets. -/
def ensureChunk (h : OdbcHandleStmt ρ V) : Except Fault (SqlReturn × OdbcHandleStmt ρ V) :=
  if h.odbcFetcher.currentChunk.isNone ∨ h.odbcFetcher.chunks.isEmpty then h.fetchNext
  else .ok (.success, h)

/-- `SetAbsoluteCurrentChunk`, with at most `n` calls of itself. -/
def absoluteLoop :
    ℕ → OdbcHandleStmt ρ V → ℤ → Except Fault (SqlReturn × OdbcHandleStmt ρ V)
  | 0, h, _ => .ok (.error, h)
  | n + 1, h, fetchOffset => do
    let (_, h) ← h.ensureChunk
    let cur ← h.odbcFetcher.deref
    let row := h.odbcFetcher.chunkRow
    if fetchOffset > cur.size ∧ h.odbcFetcher.resultsetEnd then .ok (.noData, h)
    else if fetchOffset < 0 ∧ fetchOffset.natAbs ≤ cur.size then
      .ok (.success, h.setRow (max (-1) (row + fetchOffset + 1)))
    else if fetchOffset < 0 ∧ (fetchOffset.natAbs : ℤ) > row ∧
        fetchOffset.natAbs > h.rowsetSize then
      .ok h.beforeStart
    else if fetchOffset < 0 ∧ (fetchOffset.natAbs : ℤ) > row ∧
        fetchOffset.natAbs ≤ h.rowsetSize then
      .ok (.success, h.setRow 0)
    else if fetchOffset = 0 then .ok h.beforeStart
    else if fetchOffset ≥ 0 ∧ fetchOffset < cur.size then
      .ok (.success, h.setRow (fetchOffset - 1))
    else if fetchOffset ≥ cur.size then do
      let (ret, h) ← h.fetchNext
      if ret ≠ .success then .ok (ret, { h with odbcFetcher.currentChunkIdx := 0 })
      else do
        let next ← h.odbcFetcher.deref
        absoluteLoop n h (fetchOffset - next.size)
    else .ok (.error, h)

/-- `SetAbsoluteCurrentChunk`. A call of itself takes the size of a chunk off the offset,
so that there are no more of them than the offset says. -/
def setAbsoluteCurrentChunk (h : OdbcHandleStmt ρ V) (fetchOffset : ℤ) :
    Except Fault (SqlReturn × OdbcHandleStmt ρ V) :=
  absoluteLoop (fetchOffset.toNat + 1) h fetchOffset

/-- `SetFirstCurrentChunk`. -/
def setFirstCurrentChunk (h : OdbcHandleStmt ρ V) :
    Except Fault (SqlReturn × OdbcHandleStmt ρ V) :=
  let h := h.beforeStart.2
  match h.odbcFetcher.currentChunk with
  | none => h.fetchNext
  | some _ => .ok (.success, h)

/-- `FetchNextChunk`. -/
def fetchNextChunk (h : OdbcHandleStmt ρ V) (orientation : FetchOrientation)
    (fetchOffset : ℤ) : Except Fault (SqlReturn × OdbcHandleStmt ρ V) :=
  if h.odbcFetcher.cursorType = .forwardOnly ∧ orientation ≠ .next then
    .ok (h.setDiagnosticRecord .error "FetchNextChunk"
      "Incorrect fetch orientation for cursor type: SQL_CURSOR_FORWARD_ONLY." .st24000)
  else
    match orientation with
    | .next =>
      let h := { h with odbcFetcher.priorChunkRow := h.odbcFetcher.chunkRow }
      if h.odbcFetcher.requireFetch then
        -- the end was seen and the current chunk is the last one
        if h.odbcFetcher.resultsetEnd ∧
            h.odbcFetcher.currentChunkIdx + 1 = h.odbcFetcher.chunks.length then
          .ok (.noData, h)
        else h.fetchNext
      else .ok (.success, h)
    | .prior => h.setPriorCurrentChunk
    | .absolute => h.setAbsoluteCurrentChunk fetchOffset
    | .first => h.setFirstCurrentChunk
    | .other => .ok (.success, h)

/-- The handle as `SQL_FETCH_NEXT` finds it. -/
def noted (h : OdbcHandleStmt ρ V) : OdbcHandleStmt ρ V :=
  { h with odbcFetcher.priorChunkRow := h.odbcFetcher.chunkRow }

/-- A fetch of the next rows needs a chunk only at the end of the current one. -/
theorem fetchNextChunk_next (h : OdbcHandleStmt ρ V) (off : ℤ) :
    h.fetchNextChunk .next off =
      if h.odbcFetcher.requireFetch then
        if h.odbcFetcher.resultsetEnd = true ∧
            h.odbcFetcher.currentChunkIdx + 1 = h.odbcFetcher.chunks.length then
          .ok (.noData, h.noted)
        else h.noted.fetchNext
      else .ok (.success, h.noted) := by
  unfold fetchNextChunk
  rw [if_neg (by simp)]
  rfl

/-- `FetchFirst` : a fetch of the first chunk as if the cursor were dynamic. -/
def fetchFirst (h : OdbcHandleStmt ρ V) : Except Fault (SqlReturn × OdbcHandleStmt ρ V) := do
  let before := h.odbcFetcher.cursorType
  let (ret, h) ← { h with odbcFetcher.cursorType := .dynamic }.fetchNextChunk .first 0
  return (ret, { h with odbcFetcher.cursorType := before })

/-! ## What a move of the cursor leaves as it is -/

/-- `h'` is `h` after a move of its cursor : the fetcher, the result and the diagnostics
may have changed, and a fetch that fails closes the statement. -/
structure Moved (h h' : OdbcHandleStmt ρ V) : Prop where
  stmt : h'.stmt = h.stmt
  res : h'.res.isSome = h.res.isSome
  opened : h'.opened = true → h.opened = true
  boundCols : h'.boundCols = h.boundCols
  retrieveData : h'.retrieveData = h.retrieveData
  rowsFetchedPtr : h'.rowsFetchedPtr = h.rowsFetchedPtr
  paramDesc : h'.paramDesc = h.paramDesc
  rowDesc : h'.rowDesc = h.rowDesc

namespace Moved

/-- Only the fetcher is another one. -/
theorem of_odbcFetcher (h : OdbcHandleStmt ρ V) (f : OdbcFetch ρ) :
    Moved h { h with odbcFetcher := f } :=
  ⟨rfl, rfl, id, rfl, rfl, rfl, rfl, rfl⟩

theorem refl (h : OdbcHandleStmt ρ V) : Moved h h := of_odbcFetcher h h.odbcFetcher

theorem trans {h₁ h₂ h₃ : OdbcHandleStmt ρ V} (h₁₂ : Moved h₁ h₂) (h₂₃ : Moved h₂ h₃) :
    Moved h₁ h₃ where
  stmt := h₂₃.stmt.trans h₁₂.stmt
  res := h₂₃.res.trans h₁₂.res
  opened h := h₁₂.opened (h₂₃.opened h)
  boundCols := h₂₃.boundCols.trans h₁₂.boundCols
  retrieveData := h₂₃.retrieveData.trans h₁₂.retrieveData
  rowsFetchedPtr := h₂₃.rowsFetchedPtr.trans h₁₂.rowsFetchedPtr
  paramDesc := h₂₃.paramDesc.trans h₁₂.paramDesc
  rowDesc := h₂₃.rowDesc.trans h₁₂.rowDesc

end Moved

/-! ## The steps of a move -/

/-- The handle that stored the chunk `b` of the engine, with `bs` left there. -/
def taking (h : OdbcHandleStmt ρ V) (res : QueryResult ρ) (b : Block ρ) (bs : List (Block ρ)) :
    OdbcHandleStmt ρ V :=
  ({ h with odbcFetcher := h.odbcFetcher.resetLastFetchedVariableVal }).storeChunk
    { res with pending := bs, fetched := res.fetched + 1 } ⟨res.fetched, res.columnCount, b⟩

section Taking

variable {h : OdbcHandleStmt ρ V} {res : QueryResult ρ} {b : Block ρ} {bs : List (Block ρ)}

/-- A forward-only cursor stores one chunk. -/
theorem chunks_taking_of_forwardOnly (hfwd : h.odbcFetcher.cursorType = .forwardOnly) :
    (h.taking res b bs).odbcFetcher.chunks = [⟨res.fetched, res.columnCount, b⟩] := if_pos hfwd

/-- Every other cursor stores them all. -/
theorem chunks_taking (hcur : h.odbcFetcher.cursorType ≠ .forwardOnly) :
    (h.taking res b bs).odbcFetcher.chunks =
      h.odbcFetcher.chunks ++ [⟨res.fetched, res.columnCount, b⟩] := if_neg hcur

theorem mem_taking {c : DataChunk ρ} (hc : c ∈ (h.taking res b bs).odbcFetcher.chunks) :
    c ∈ h.odbcFetcher.chunks ∨ c = ⟨res.fetched, res.columnCount, b⟩ := by
  by_cases hfwd : h.odbcFetcher.cursorType = .forwardOnly
  · rw [chunks_taking_of_forwardOnly hfwd] at hc
    exact .inr (List.mem_singleton.1 hc)
  · rw [chunks_taking hfwd] at hc
    simpa using hc

end Taking

/-- A chunk of the engine is stored, and a stored chunk becomes the current one. -/
theorem fetchNext_taken {h : OdbcHandleStmt ρ V} {res : QueryResult ρ} {b : Block ρ}
    {bs : List (Block ρ)} (hend : h.odbcFetcher.resultsetEnd = false) (hres : h.res = some res)
    (hp : res.pending = b :: bs) :
    ∃ idx c, (h.taking res b bs).odbcFetcher.chunks[idx]? = some c ∧
      h.fetchNext = .ok (.success, (h.taking res b bs).seat idx c) := by
  obtain ⟨idx, c, hc, hseat⟩ := setCurrentChunk_of_ne (h := h.taking res b bs)
    (by simp only [taking, storeChunk]; split <;> simp)
  exact ⟨idx, c, hc, (fetchNext_of_pending hend hres hp).trans (congrArg Except.ok hseat)⟩

/-- What a move of the cursor is made of : it goes to a row of its chunk or in front of or on a
row of a stored one, sets the index of the chunk back, takes a chunk from the engine, finds
its result at the end or broken, or is refused. -/
inductive CursorStep (h : OdbcHandleStmt ρ V) : OdbcHandleStmt ρ V → Prop
  | place {row prior : ℤ} (hrow : -1 ≤ row ∨ row = h.odbcFetcher.chunkRow) :
      CursorStep h { h with odbcFetcher.chunkRow := row, odbcFetcher.priorChunkRow := prior }
  | seat {idx : ℕ} {c : DataChunk ρ} {row : ℤ} (hc : h.odbcFetcher.chunks[idx]? = some c)
      (hrow : -1 ≤ row) : CursorStep h ((h.seat idx c).setRow row)
  | reset : CursorStep h { h with odbcFetcher.currentChunkIdx := 0 }
  | taken {res : QueryResult ρ} {b : Block ρ} {bs : List (Block ρ)} {idx : ℕ} {c : DataChunk ρ}
      (hend : h.odbcFetcher.resultsetEnd = false) (hres : h.res = some res)
      (hp : res.pending = b :: bs)
      (hc : (h.taking res b bs).odbcFetcher.chunks[idx]? = some c) :
      CursorStep h ((h.taking res b bs).seat idx c)
  | ended {res : QueryResult ρ} (hend : h.odbcFetcher.resultsetEnd = false)
      (hres : h.res = some res) (hp : res.pending = []) (hf : res.failure = none) :
      CursorStep h { h with
        odbcFetcher := { h.odbcFetcher.resetLastFetchedVariableVal with resultsetEnd := true } }
  | failed {res : QueryResult ρ} {msg : String} {diag : List DiagRecord}
      (hend : h.odbcFetcher.resultsetEnd = false) (hres : h.res = some res)
      (hp : res.pending = []) (hf : res.failure = some msg) :
      CursorStep h { h with
        odbcFetcher := h.odbcFetcher.resetLastFetchedVariableVal
        opened := false
        res := some { res with error := some msg }
        diag := diag }
  | refused {diag : List DiagRecord} : CursorStep h { h with diag := diag }

/-- Several steps. -/
abbrev CursorSteps (h h' : OdbcHandleStmt ρ V) : Prop := Relation.ReflTransGen CursorStep h h'

/-- What every step keeps, a move keeps. -/
theorem CursorSteps.invariant {P : OdbcHandleStmt ρ V → Prop}
    (hstep : ∀ {h h' : OdbcHandleStmt ρ V}, P h → CursorStep h h' → P h')
    {h h' : OdbcHandleStmt ρ V} (hs : CursorSteps h h') (hp : P h) : P h' := by
  induction hs with
  | refl => exact hp
  | tail _ hlast ih => exact hstep ih hlast

/-- The cursor stays in front of or on a row. -/
theorem CursorSteps.low {h h' : OdbcHandleStmt ρ V} (hs : CursorSteps h h')
    (hlow : -1 ≤ h.odbcFetcher.chunkRow) : -1 ≤ h'.odbcFetcher.chunkRow := by
  refine CursorSteps.invariant (P := fun h => -1 ≤ h.odbcFetcher.chunkRow) ?_ hs hlow
  intro h h' hlow hstep
  cases hstep with
  | place hrow =>
    rcases hrow with hrow | rfl
    · exact hrow
    · exact hlow
  | seat _ hrow => exact hrow
  | taken => exact Int.le_refl _
  | reset | ended | failed | refused => exact hlow

section Steps

variable {h h' : OdbcHandleStmt ρ V} {ret : SqlReturn}

/-- Going to the next stored chunk is a step. -/
theorem steps_setCurrentChunk (hx : h.setCurrentChunk = (ret, h')) : CursorSteps h h' := by
  by_cases he : h.odbcFetcher.chunks = []
  · rw [setCurrentChunk_of_empty he] at hx
    cases hx
    exact .refl
  · obtain ⟨idx, c, hc, hseat⟩ := setCurrentChunk_of_ne he
    rw [hseat] at hx
    cases hx
    exact .single (.seat hc (Int.le_refl _))

/-- So is asking the engine for one. -/
theorem steps_fetchNext (hx : h.fetchNext = .ok (ret, h')) : CursorSteps h h' := by
  cases hend : h.odbcFetcher.resultsetEnd with
  | true =>
    rw [fetchNext_of_end hend] at hx
    exact steps_setCurrentChunk (Except.ok.inj hx)
  | false =>
    cases hres : h.res with
    | none => simp [fetchNext, hend, hres] at hx
    | some res =>
      cases hp : res.pending with
      | cons b bs =>
        obtain ⟨idx, c, hc, hnext⟩ := fetchNext_taken hend hres hp
        rw [hnext] at hx
        cases hx
        exact .single (.taken hend hres hp hc)
      | nil =>
        cases hf : res.failure with
        | none =>
          rw [fetchNext_of_done hend hres hp hf] at hx
          cases hx
          exact .single (.ended hend hres hp hf)
        | some msg =>
          rw [fetchNext_of_failure hend hres hp hf] at hx
          cases hx
          exact .single (.failed hend hres hp hf)

/-- So is going back. -/
theorem steps_setPriorCurrentChunk (hx : h.setPriorCurrentChunk = .ok (ret, h')) :
    CursorSteps h h' := by
  unfold setPriorCurrentChunk at hx
  dsimp only at hx
  split at hx
  · split at hx
    · cases hx
      exact .single (.place (.inl (Int.le_refl _)))
    · split at hx
      · cases hx
      · next c hc =>
        cases hx
        exact .single (.seat hc (Int.le_max_left ..))
  · next hge =>
    cases hx
    exact .single (.place (.inl (Int.not_lt.1 hge)))

/-- Without a chunk only the index and the row are set back. -/
theorem steps_beforeStart (h : OdbcHandleStmt ρ V) : CursorSteps h h.beforeStart.2 := by
  cases hchunks : h.odbcFetcher.chunks with
  | nil =>
    have hrow : CursorSteps h { h with
        odbcFetcher.chunkRow := -1, odbcFetcher.priorChunkRow := -1 } :=
      .single (.place (.inl (Int.le_refl _)))
    refine hrow.tail ?_
    simp only [beforeStart, hchunks, List.head?_nil, Option.none_or]
    exact .reset
  | cons c cs =>
    have hget : h.odbcFetcher.chunks[0]? = some c := by simp [hchunks]
    have hseat : h.beforeStart.2 = (h.seat 0 c).setRow (-1) := by
      simp [beforeStart, seat, setRow, hchunks]
    rw [hseat]
    exact .single (.seat hget (Int.le_refl _))

/-- Looking for a row are steps. -/
theorem steps_absoluteLoop {n : ℕ} {off : ℤ} (hx : absoluteLoop n h off = .ok (ret, h')) :
    CursorSteps h h' := by
  induction n generalizing h off with
  | zero =>
    cases hx
    exact .refl
  | succ n ih =>
    unfold absoluteLoop at hx
    obtain ⟨⟨ret₁, h₁⟩, h₁x, hx⟩ := Outcome.bind_eq_ok.1 hx
    have hsteps₁ : CursorSteps h h₁ := by
      unfold ensureChunk at h₁x
      split at h₁x
      · exact steps_fetchNext h₁x
      · cases h₁x
        exact .refl
    obtain ⟨cur, -, hx⟩ := Outcome.bind_eq_ok.1 hx
    refine hsteps₁.trans ?_
    dsimp only at hx
    split at hx
    · cases hx
      exact .refl
    split at hx
    · cases hx
      exact .single (.place (.inl (Int.le_max_left ..)))
    split at hx
    · cases hx
      exact steps_beforeStart h₁
    split at hx
    · cases hx
      exact .single (.place (.inl (by omega)))
    split at hx
    · cases hx
      exact steps_beforeStart h₁
    split at hx
    · cases hx
      exact .single (.place (.inl (by omega)))
    split at hx
    · obtain ⟨⟨ret₂, h₂⟩, h₂x, hx⟩ := Outcome.bind_eq_ok.1 hx
      refine (steps_fetchNext h₂x).trans ?_
      dsimp only at hx
      split at hx
      · cases hx
        exact .single .reset
      · obtain ⟨next, -, hx⟩ := Outcome.bind_eq_ok.1 hx
        exact ih hx
    · cases hx
      exact .refl

/-- Going to the first chunk are steps. -/
theorem steps_setFirstCurrentChunk (hx : h.setFirstCurrentChunk = .ok (ret, h')) :
    CursorSteps h h' := by
  unfold setFirstCurrentChunk at hx
  dsimp only at hx
  split at hx
  · exact (steps_beforeStart h).trans (steps_fetchNext hx)
  · cases hx
    exact steps_beforeStart h

/-- A move of any orientation. -/
theorem steps_fetchNextChunk {orientation : FetchOrientation} {off : ℤ}
    (hx : h.fetchNextChunk orientation off = .ok (ret, h')) : CursorSteps h h' := by
  unfold fetchNextChunk at hx
  split at hx
  · cases hx
    exact .single .refused
  · cases orientation with
    | next =>
      have hnoted : CursorSteps h h.noted := .single (.place (.inr rfl))
      dsimp only at hx
      split at hx
      · split at hx
        · cases hx
          exact hnoted
        · exact hnoted.trans (steps_fetchNext hx)
      · cases hx
        exact hnoted
    | prior => exact steps_setPriorCurrentChunk hx
    | first => exact steps_setFirstCurrentChunk hx
    | absolute => exact steps_absoluteLoop hx
    | other =>
      cases hx
      exact .refl

end Steps

/-- A step moves the cursor only. -/
theorem CursorStep.moved {h h' : OdbcHandleStmt ρ V} (hs : CursorStep h h') : Moved h h' := by
  cases hs with
  | place | seat | reset | ended => exact .of_odbcFetcher h _
  | taken hend hres => exact ⟨rfl, by rw [hres]; rfl, id, rfl, rfl, rfl, rfl, rfl⟩
  | failed hend hres => exact ⟨rfl, by simp [hres], by simp, rfl, rfl, rfl, rfl, rfl⟩
  | refused => exact ⟨rfl, rfl, id, rfl, rfl, rfl, rfl, rfl⟩

theorem CursorSteps.moved {h h' : OdbcHandleStmt ρ V} (hs : CursorSteps h h') : Moved h h' :=
  CursorSteps.invariant (P := Moved h) (fun hm hstep => hm.trans hstep.moved) hs (.refl h)

theorem moved_fetchNext {h h' : OdbcHandleStmt ρ V} {ret : SqlReturn}
    (hx : h.fetchNext = .ok (ret, h')) : Moved h h' :=
  (steps_fetchNext hx).moved

theorem moved_fetchNextChunk {h h' : OdbcHandleStmt ρ V} {orientation : FetchOrientation}
    {off : ℤ} {ret : SqlReturn} (hx : h.fetchNextChunk orientation off = .ok (ret, h')) :
    Moved h h' :=
  (steps_fetchNextChunk hx).moved

theorem moved_fetchFirst {h h' : OdbcHandleStmt ρ V} {ret : SqlReturn}
    (hx : h.fetchFirst = .ok (ret, h')) : Moved h h' := by
  obtain ⟨⟨ret₁, h₁⟩, h₁x, hx⟩ := Outcome.bind_eq_ok.1 hx
  cases hx
  have hmoved := (Moved.of_odbcFetcher h { h.odbcFetcher with cursorType := .dynamic }).trans
    (moved_fetchNextChunk h₁x)
  exact hmoved.trans (.of_odbcFetcher h₁ _)

/-! ## Materialization -/

/-- The loop of `Materialize`, for at most `n` calls of `FetchNext`. -/
def materializeLoop (n : ℕ) (h : OdbcHandleStmt ρ V) :
    Option (Except Fault (SqlReturn × OdbcHandleStmt ρ V)) :=
  DoWhile.run fetchNext SqlReturn.succeeded n h

/-- What `Materialize` does after its loop : put the saved position of `before` back, or the
cursor in front of the first stored chunk if there was no current chunk. -/
def restorePosition (before : OdbcFetch ρ) (h : OdbcHandleStmt ρ V) : OdbcHandleStmt ρ V :=
  match before.currentChunk with
  | some c =>
    { h with
      odbcFetcher.currentChunk := some c
      odbcFetcher.currentChunkIdx := before.currentChunkIdx
      odbcFetcher.chunkRow := before.chunkRow
      odbcFetcher.priorChunkRow := before.priorChunkRow }
  | none => h.beforeStart.2

/-- `Materialize`. -/
def materialize (n : ℕ) (h : OdbcHandleStmt ρ V) :
    Option (Except Fault (SqlReturn × OdbcHandleStmt ρ V)) :=
  (h.materializeLoop n).map fun x => x.map fun p =>
    (if p.1 = .noData ∨ p.1 = .success then .success else p.1,
      restorePosition h.odbcFetcher p.2)

/-- `OdbcHandleStmt::MaterializeResult`. -/
def materializeResult (n : ℕ) (h : OdbcHandleStmt ρ V) :
    Option (Except Fault (SqlReturn × OdbcHandleStmt ρ V)) :=
  match h.stmt, h.res with
  | some stmt, some res =>
    if stmt.error.isSome ∨ res.error.isSome then some (.ok (.success, h)) else h.materialize n
  | _, _ => some (.ok (.success, h))

end OdbcHandleStmt

end HaybarnOdbc
