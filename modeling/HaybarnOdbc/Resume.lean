import HaybarnOdbc.Frame
import HaybarnOdbc.Scroll
import HaybarnOdbc.Commit

/-!
# Fetching after a commit

A commit takes all the chunks of the last statement from the engine and puts the cursor
back to where it was. The chunks are stored behind the ones that were there, but for a
forward-only cursor, which keeps the last of them and frees the one the cursor is on
(`commit_frees_chunk`).

The position is the same after it (`AllTaken`). But `SQL_FETCH_NEXT` now looks for the end
of the current chunk where the last chunk of the whole result has it, so that the fetches
that follow are the ones without the commit as long as both are in step
(`commit_keeps_rows`).
-/

namespace HaybarnOdbc

variable {ρ V : Type}

/-- The chunks that the engine will hand over. -/
def QueryResult.chunksLeft (res : QueryResult ρ) : List (DataChunk ρ) :=
  res.pending.mapIdx fun i b => ⟨res.fetched + i, res.columnCount, b⟩

theorem QueryResult.chunksLeft_nil {res : QueryResult ρ} (hp : res.pending = []) :
    res.chunksLeft = [] := by
  simp [chunksLeft, hp]

theorem QueryResult.pending_of_chunksLeft {res : QueryResult ρ} (hl : res.chunksLeft = []) :
    res.pending = [] := by
  simpa [chunksLeft] using hl

theorem QueryResult.chunksLeft_cons {res : QueryResult ρ} {b : Block ρ} {bs : List (Block ρ)}
    (hp : res.pending = b :: bs) :
    res.chunksLeft = ⟨res.fetched, res.columnCount, b⟩ ::
      ({ res with pending := bs, fetched := res.fetched + 1 } : QueryResult ρ).chunksLeft := by
  simp [chunksLeft, hp, List.mapIdx_cons, Nat.add_assoc, Nat.add_comm 1]

namespace OdbcHandleStmt

/-! ## Two cursors at the same position -/

/-- The handle `h` is on the chunk `c` of its stored chunks, and `h'` is `h` with the chunks
that are left taken from the engine. -/
structure AllTaken (h h' : OdbcHandleStmt ρ V) (pre : List (DataChunk ρ)) (c : DataChunk ρ)
    (post : List (DataChunk ρ)) (res : QueryResult ρ) : Prop where
  chunks : h.odbcFetcher.chunks = pre ++ c :: post
  current : h.odbcFetcher.currentChunk = some c
  idx : h.odbcFetcher.currentChunkIdx = pre.length
  result : h.res = some res
  failure : res.failure = none
  seen : h.odbcFetcher.resultsetEnd = true → res.pending = []
  forward : h.odbcFetcher.cursorType = .forwardOnly → post = [] ∧ res.pending = []
  same : ∃ last res', h' =
    h.onStore last (some res') (h.odbcFetcher.chunks ++ res.chunksLeft) pre.length true

section Move

variable {h h' : OdbcHandleStmt ρ V} {pre post : List (DataChunk ρ)} {c : DataChunk ρ}
  {res : QueryResult ρ}

theorem AllTaken.noted (ht : AllTaken h h' pre c post res) :
    AllTaken h.noted h'.noted pre c post res := by
  obtain ⟨last, res', rfl⟩ := ht.same
  exact ⟨ht.chunks, ht.current, ht.idx, ht.result, ht.failure, ht.seen, ht.forward, last, res', rfl⟩

theorem AllTaken.deref (ht : AllTaken h h' pre c post res) :
    h.odbcFetcher.deref = .ok c ∧ h'.odbcFetcher.deref = .ok c := by
  have hmem : c ∈ h.odbcFetcher.chunks := by rw [ht.chunks]; simp
  obtain ⟨last, res', rfl⟩ := ht.same
  exact ⟨OdbcFetch.deref_eq_ok ht.current hmem,
    OdbcFetch.deref_eq_ok ht.current (List.mem_append_left _ hmem)⟩

/-- In step, both look for a chunk exactly at the end of the current one. -/
theorem AllTaken.requireFetch (ht : AllTaken h h' pre c post res) (hok : NextInStep h)
    (hok' : NextInStep h') :
    (h.odbcFetcher.requireFetch = true ↔ (c.size : ℤ) ≤ h.odbcFetcher.chunkRow + 1) ∧
      (h'.odbcFetcher.requireFetch = true ↔ (c.size : ℤ) ≤ h.odbcFetcher.chunkRow + 1) := by
  have hne : h.odbcFetcher.chunks ≠ [] := by rw [ht.chunks]; simp
  obtain ⟨last, res', rfl⟩ := ht.same
  have hne' : h.odbcFetcher.chunks ++ res.chunksLeft ≠ [] := by simp [hne]
  have hl := List.getLast?_eq_some_getLast hne
  have hl' := List.getLast?_eq_some_getLast hne'
  exact ⟨(requireFetch_iff hl).trans (hok c _ res ht.current hl ht.result).1,
    (requireFetch_iff hl').trans (hok' c _ res' ht.current hl' rfl).1⟩

/-- With the end seen, a cursor that is not forward-only steps to the next stored chunk. -/
theorem fetchNextChunk_next_stored (hcur : h.odbcFetcher.cursorType ≠ .forwardOnly)
    (hreq : h.odbcFetcher.requireFetch = true) (hend : h.odbcFetcher.resultsetEnd = true)
    {c : DataChunk ρ} (hc : h.odbcFetcher.chunks[h.odbcFetcher.currentChunkIdx + 1]? = some c) :
    h.fetchNextChunk .next 0 =
    .ok (.success, h.noted.seat (h.odbcFetcher.currentChunkIdx + 1) c) := by
  have hlt := (List.getElem?_eq_some_iff.1 hc).1
  rw [fetchNextChunk_next, if_pos hreq, if_neg (by rintro ⟨-, heq⟩; omega),
    fetchNext_of_end (h := h.noted) hend, setCurrentChunk_of_stored (h := h.noted) hcur hc]
  rfl

/-- With the end seen, the last chunk is the end. -/
theorem fetchNextChunk_next_last (hreq : h.odbcFetcher.requireFetch = true)
    (hend : h.odbcFetcher.resultsetEnd = true)
    (hidx : h.odbcFetcher.currentChunkIdx + 1 = h.odbcFetcher.chunks.length) :
    h.fetchNextChunk .next 0 = .ok (.noData, h.noted) := by
  rw [fetchNextChunk_next, if_pos hreq, if_pos ⟨hend, hidx⟩]

/-- At the end of the last chunk both find no data. -/
theorem AllTaken.move_end (ht : AllTaken h h' pre c [] res) (hp : res.pending = [])
    (hreq : h.odbcFetcher.requireFetch = true) (hreq' : h'.odbcFetcher.requireFetch = true) :
    ∃ s s', h.fetchNextChunk .next 0 = .ok (.noData, s) ∧
      h'.fetchNextChunk .next 0 = .ok (.noData, s') ∧
      AllTaken s s' pre c [] res := by
  have hnoted := ht.noted
  have hlen : h.odbcFetcher.currentChunkIdx + 1 = h.odbcFetcher.chunks.length := by
    rw [ht.idx, ht.chunks]
    simp
  have hmove' : h'.fetchNextChunk .next 0 = .ok (.noData, h'.noted) := by
    obtain ⟨last, res', rfl⟩ := ht.same
    refine fetchNextChunk_next_last hreq' rfl ?_
    simp [onStore, ht.chunks, QueryResult.chunksLeft_nil hp]
  cases hend : h.odbcFetcher.resultsetEnd with
  | true => exact ⟨h.noted, h'.noted, fetchNextChunk_next_last hreq hend hlen, hmove', hnoted⟩
  | false =>
    have hmove := fetchNextChunk_next h 0
    rw [if_pos hreq, if_neg (by simp [hend]),
      fetchNext_of_done (h := h.noted) hend ht.result hp ht.failure] at hmove
    refine ⟨_, h'.noted, hmove, hmove', ?_⟩
    obtain ⟨last, res', hh'⟩ := hnoted.same
    exact ⟨hnoted.chunks, hnoted.current, hnoted.idx, hnoted.result, hnoted.failure, fun _ => hp,
      hnoted.forward, last, res', by rw [hh']; rfl⟩

/-- A chunk that is stored or with the engine is the next one for both. -/
theorem AllTaken.move_chunk (ht : AllTaken h h' pre c post res)
    (hcur : h.odbcFetcher.cursorType ≠ .forwardOnly) (hreq : h.odbcFetcher.requireFetch = true)
    (hreq' : h'.odbcFetcher.requireFetch = true)
    (hmore : (h.odbcFetcher.resultsetEnd = true ∧ post ≠ []) ∨
      (h.odbcFetcher.resultsetEnd = false ∧ res.pending ≠ [])) :
    ∃ s s' c' post' res₁, h.fetchNextChunk .next 0 = .ok (.success, s) ∧
      h'.fetchNextChunk .next 0 = .ok (.success, s') ∧
      AllTaken s s' (pre ++ [c]) c' post' res₁ := by
  obtain ⟨last, res', hh'⟩ := ht.same
  have hmove' : ∀ c' rest, post ++ res.chunksLeft = c' :: rest →
      h'.fetchNextChunk .next 0 = .ok (.success, h'.noted.seat (pre.length + 1) c') := by
    intro c' rest hleft
    have hcur' : h'.odbcFetcher.cursorType ≠ .forwardOnly := by rw [hh']; exact hcur
    have hget : h'.odbcFetcher.chunks[pre.length + 1]? = some c' := by
      rw [hh']
      simp only [onStore, ht.chunks, List.append_assoc, List.cons_append, hleft]
      simp
    have hidx : h'.odbcFetcher.currentChunkIdx = pre.length := by rw [hh']; rfl
    rw [← hidx] at hget ⊢
    exact fetchNextChunk_next_stored hcur' hreq' (by rw [hh']; rfl) hget
  rcases hmore with ⟨hend, hne⟩ | ⟨hend, hne⟩
  · -- the chunk is stored
    have hp := ht.seen hend
    obtain ⟨c', post, rfl⟩ := List.exists_cons_of_ne_nil hne
    have hget : h.odbcFetcher.chunks[h.odbcFetcher.currentChunkIdx + 1]? = some c' := by
      rw [ht.chunks, ht.idx]
      simp
    refine ⟨_, _, c', post, res, fetchNextChunk_next_stored hcur hreq hend hget,
      hmove' c' _ (by rw [QueryResult.chunksLeft_nil hp, List.append_nil]), ?_⟩
    exact ⟨by simp [OdbcHandleStmt.seat, OdbcHandleStmt.noted, ht.chunks], rfl,
      by simp [OdbcHandleStmt.seat, ht.idx], ht.result, ht.failure, ht.seen,
      fun hfwd => absurd hfwd hcur, last, res', by
        rw [hh']
        simp [OdbcHandleStmt.seat, OdbcHandleStmt.noted, onStore]⟩
  · -- the chunk is taken from the engine, behind the stored ones
    obtain ⟨b, bs, hp⟩ := List.exists_cons_of_ne_nil hne
    let taken : DataChunk ρ := ⟨res.fetched, res.columnCount, b⟩
    let rest : QueryResult ρ := { res with pending := bs, fetched := res.fetched + 1 }
    let stored := ({ h.noted with
      odbcFetcher := h.noted.odbcFetcher.resetLastFetchedVariableVal }).storeChunk rest taken
    have hleft : res.chunksLeft = taken :: rest.chunksLeft := QueryResult.chunksLeft_cons hp
    obtain ⟨c', post', hpost⟩ : ∃ c' post', post ++ [taken] = c' :: post' := by
      cases post with
      | nil => exact ⟨taken, [], rfl⟩
      | cons c' post => exact ⟨c', post ++ [taken], rfl⟩
    have hchunks : stored.odbcFetcher.chunks = pre ++ [c] ++ c' :: post' := by
      have hc : stored.odbcFetcher.chunks = h.odbcFetcher.chunks ++ [taken] := if_neg hcur
      rw [hc, ht.chunks, List.append_assoc, List.cons_append, hpost]
      simp
    have hget : stored.odbcFetcher.chunks[stored.odbcFetcher.currentChunkIdx + 1]? = some c' := by
      have hi : stored.odbcFetcher.currentChunkIdx = pre.length := ht.idx
      rw [hchunks, hi]
      simp
    have hmove : h.fetchNextChunk .next 0 =
        .ok (.success, stored.seat (stored.odbcFetcher.currentChunkIdx + 1) c') := by
      rw [fetchNextChunk_next, if_pos hreq, if_neg (by simp [hend]),
        fetchNext_of_pending (h := h.noted) hend ht.result hp]
      exact congrArg Except.ok (setCurrentChunk_of_stored (h := stored) hcur hget)
    refine ⟨_, _, c', post', rest, hmove, hmove' c' (post' ++ rest.chunksLeft) ?_, ?_⟩
    · rw [hleft, ← List.cons_append, ← hpost]
      simp
    · refine ⟨hchunks, rfl, ?_, rfl, ht.failure, ?_, fun hfwd => absurd hfwd hcur, last, res', ?_⟩
      · change stored.odbcFetcher.currentChunkIdx + 1 = _
        rw [show stored.odbcFetcher.currentChunkIdx = pre.length from ht.idx]
        simp
      · intro hseen
        exact absurd (hend.symm.trans hseen) (by simp)
      · have hall : (stored.seat (stored.odbcFetcher.currentChunkIdx + 1) c').odbcFetcher.chunks ++
            rest.chunksLeft = h.odbcFetcher.chunks ++ res.chunksLeft := by
          change stored.odbcFetcher.chunks ++ _ = _
          rw [hchunks, ht.chunks, hleft, List.append_assoc, List.cons_append,
            ← List.cons_append, ← hpost]
          simp
        rw [hall, hh']
        simp [OdbcHandleStmt.seat, OdbcHandleStmt.noted, onStore, stored, storeChunk,
          OdbcFetch.resetLastFetchedVariableVal]

/-- One `SQL_FETCH_NEXT` in step moves both cursors to the same position. -/
theorem AllTaken.move (ht : AllTaken h h' pre c post res) (hok : NextInStep h)
    (hok' : NextInStep h') :
    ∃ ret s s' pre' c' post' res₁, h.fetchNextChunk .next 0 = .ok (ret, s) ∧
      h'.fetchNextChunk .next 0 = .ok (ret, s') ∧ AllTaken s s' pre' c' post' res₁ ∧
      (ret = .success ∨ ret = .noData) := by
  obtain ⟨hreq, hreq'⟩ := ht.requireFetch hok hok'
  by_cases hrow : (c.size : ℤ) ≤ h.odbcFetcher.chunkRow + 1
  · replace hreq := hreq.2 hrow
    replace hreq' := hreq'.2 hrow
    by_cases hlast : post = [] ∧ res.pending = []
    · obtain ⟨rfl, hp⟩ := hlast
      obtain ⟨s, s', hmove, hmove', hs⟩ := ht.move_end hp hreq hreq'
      exact ⟨_, s, s', pre, c, [], res, hmove, hmove', hs, .inr rfl⟩
    · have hcur : h.odbcFetcher.cursorType ≠ .forwardOnly := fun hfwd => hlast (ht.forward hfwd)
      have hmore : (h.odbcFetcher.resultsetEnd = true ∧ post ≠ []) ∨
          (h.odbcFetcher.resultsetEnd = false ∧ res.pending ≠ []) := by
        cases hend : h.odbcFetcher.resultsetEnd with
        | true => exact .inl ⟨rfl, fun hpost => hlast ⟨hpost, ht.seen hend⟩⟩
        | false =>
          refine .inr ⟨rfl, fun hp => ?_⟩
          have hpost : 0 < post.length := List.length_pos_iff.2 fun hpost => hlast ⟨hpost, hp⟩
          obtain ⟨last, hl⟩ : ∃ last, h.odbcFetcher.chunks.getLast? = some last := by
            rw [ht.chunks]
            exact ⟨_, List.getLast?_eq_some_getLast (by simp)⟩
          have hstored := (hok c last res ht.current hl ht.result).2 hrow
            (by rw [ht.idx, ht.chunks]; simp; omega)
          rw [hend, hp] at hstored
          simp at hstored
      obtain ⟨s, s', c', post', res₁, hmove, hmove', hs⟩ := ht.move_chunk hcur hreq hreq' hmore
      exact ⟨_, s, s', _, c', post', res₁, hmove, hmove', hs, .inl rfl⟩
  · refine ⟨.success, h.noted, h'.noted, pre, c, post, res, ?_, ?_, ht.noted, .inl rfl⟩
    · rw [fetchNextChunk_next, if_neg (by rw [hreq]; exact hrow)]
    · rw [fetchNextChunk_next, if_neg (by rw [hreq']; exact hrow)]

end Move

/-! ## The fetches that follow -/

/-- What the application sees of a fetch : the code, the rows, and the stores. -/
def Delivery.shown (d : Delivery ρ V) : SqlReturn × List ρ × List Write := (d.ret, d.rows, d.writes)

/-- A fetch, up to what the application sees of it. -/
def showStep (E : Engine ρ V) (h : OdbcHandleStmt ρ V) (_ : Unit) :
    Except Fault ((SqlReturn × List ρ × List Write) × OdbcHandleStmt ρ V) :=
  (h.fetchStmtResult E .next 0).map fun d => (d.shown, d.h)

/-- What the application sees of the next `m` calls of `SQL_FETCH_NEXT`. -/
def seen (E : Engine ρ V) (h : OdbcHandleStmt ρ V) (m : ℕ) :
    Except Fault (List (SqlReturn × List ρ × List Write)) :=
  (Run.outputs (showStep E) h (List.replicate m ())).map Prod.fst

/-- A fetch is in step : `SQL_FETCH_NEXT` finds the end of the current chunk, and nothing is
noted as read of the rows it goes to. -/
def FetchInStep (h : OdbcHandleStmt ρ V) : Prop :=
  NextInStep h ∧ ∀ h₁ c, h.fetchNextChunk .next 0 = .ok (.success, h₁) →
    h₁.odbcFetcher.deref = .ok c →
    h₁.boundCols = [] ∨ h₁.Unread (h₁.rowset c).length

/-- The next `m` fetches are in step. -/
def ScanInStep (E : Engine ρ V) (h : OdbcHandleStmt ρ V) (m : ℕ) : Prop :=
  Run.Along (fun h i h' => ∃ o, showStep E h i = .ok (o, h')) (fun h _ => FetchInStep h) h
    (List.replicate m ())

/-- The handle `h'` after a commit, and `h` without it. -/
inductive Resumes (h h' : OdbcHandleStmt ρ V) : Prop
  | chunks {pre : List (DataChunk ρ)} {c : DataChunk ρ} {post : List (DataChunk ρ)}
    {res : QueryResult ρ}
      (ht : AllTaken h h' pre c post res)
  | empty (hopen : h'.opened = h.opened) (hchunks : h.odbcFetcher.chunks = [])
      (hchunks' : h'.odbcFetcher.chunks = []) (hend : h.odbcFetcher.resultsetEnd = true)
      (hend' : h'.odbcFetcher.resultsetEnd = true)

section Step

variable {E : Engine ρ V} {h h' s s' t t' : OdbcHandleStmt ρ V}

/-- A delivery that both made alike keeps them at the same position. -/
theorem AllTaken.delivered {pre post : List (DataChunk ρ)} {c : DataChunk ρ} {res : QueryResult ρ}
    {l l' : LastFetched} (ht : AllTaken s s' pre c post res) (hs : SameChunk s t)
    (hs' : SameChunk s' t')
    (ha : Alike l l' t t') : AllTaken t t' pre c post res := by
  obtain ⟨last, res', hsame⟩ := ht.same
  obtain ⟨last₁, res₁, chunks₁, idx₁, seen₁, heq, -⟩ := ha
  have hstore : res₁ = some res' ∧ chunks₁ = s.odbcFetcher.chunks ++ res.chunksLeft ∧
      idx₁ = pre.length ∧ seen₁ = true := by
    obtain ⟨row, count, last, diag, hh'⟩ := hs'
    rw [hsame, heq] at hh'
    exact ⟨congrArg OdbcHandleStmt.res hh', congrArg (·.odbcFetcher.chunks) hh',
      congrArg (·.odbcFetcher.currentChunkIdx) hh', congrArg (·.odbcFetcher.resultsetEnd) hh'⟩
  obtain ⟨rfl, rfl, rfl, rfl⟩ := hstore
  obtain ⟨row, count, last, diag, rfl⟩ := hs
  exact ⟨ht.chunks, ht.current, ht.idx, ht.result, ht.failure, ht.seen, ht.forward,
    last₁, res', heq⟩

theorem AllTaken.step {pre post : List (DataChunk ρ)} {c : DataChunk ρ} {res : QueryResult ρ}
    (ht : AllTaken h h' pre c post res) (hok : FetchInStep h) (hok' : FetchInStep h') :
    Outcome.Agree (fun d d' => d.shown = d'.shown ∧ Resumes d.h d'.h)
      (h.fetchStmtResult E .next 0) (h'.fetchStmtResult E .next 0) := by
  have hopen : h'.opened = h.opened := by
    obtain ⟨last, res', rfl⟩ := ht.same
    rfl
  cases hopened : h.opened with
  | false =>
    unfold fetchStmtResult
    rw [hopen, hopened]
    exact .ok ⟨rfl, .chunks ht⟩
  | true =>
    obtain ⟨ret, s, s', pre', c', post', res₁, hmove, hmove', hs, hret⟩ := ht.move hok.1 hok'.1
    rw [fetchStmtResult_of_open hopened hmove, fetchStmtResult_of_open (hopen.trans hopened) hmove']
    rcases hret with rfl | rfl
    · obtain ⟨hd, hd'⟩ := hs.deref
      obtain ⟨last, res', hsame⟩ := hs.same
      have halike : Alike s.odbcFetcher.lastFetched last s s' :=
        ⟨last, _, _, _, _, hsame, .inr ⟨rfl, rfl⟩, hd'.trans hd.symm⟩
      have hclear : s.boundCols = [] ∨
          (ClearRows s.odbcFetcher.chunkRow (s.rowset c').length s.odbcFetcher.lastFetched ∧
            ClearRows s.odbcFetcher.chunkRow (s.rowset c').length last) := by
        rcases hok.2 s c' hmove hd with hb | hu
        · exact .inl hb
        · rcases hok'.2 s' c' hmove' hd' with hb | hu'
          · exact .inl (by rw [hsame] at hb; exact hb)
          · have hu' := hu'.clearRows
            rw [hsame] at hu'
            exact .inr ⟨hu.clearRows, hu'⟩
      refine (halike.deliver hd hclear E).imp ?_
      rintro d d' hx hx' ⟨hret, hrows, hwrites, ha⟩
      have hs' := hs.delivered (sameChunk_deliver hx) (sameChunk_deliver hx') ha
      exact ⟨by simp only [Delivery.shown, hret, hrows, hwrites], .chunks hs'⟩
    · exact .ok ⟨rfl, .chunks hs⟩

theorem fetchStmtResult_of_empty (hchunks : h.odbcFetcher.chunks = [])
    (hend : h.odbcFetcher.resultsetEnd = true) :
    ∃ t, h.fetchStmtResult E .next 0 = .ok ⟨.noData, t, [], []⟩ ∧ t.opened = h.opened ∧
      t.odbcFetcher.chunks = [] ∧ t.odbcFetcher.resultsetEnd = true := by
  cases hopen : h.opened with
  | false => exact ⟨h, by simp [fetchStmtResult, hopen], hopen, hchunks, hend⟩
  | true =>
    have hmove : h.fetchNextChunk .next 0 = .ok (.noData, h.noted) := by
      rw [fetchNextChunk_next, if_pos (by simp [OdbcFetch.requireFetch, hchunks]),
        if_neg (by simp [hchunks]), fetchNext_of_end (h := h.noted) hend,
        setCurrentChunk_of_empty (h := h.noted) hchunks]
    exact ⟨h.noted, fetchStmtResult_of_open hopen hmove, hopen, hchunks, hend⟩

theorem Resumes.step (hr : Resumes h h') (hok : FetchInStep h) (hok' : FetchInStep h') (u : Unit) :
    Outcome.Agree (fun p q => p.1 = q.1 ∧ Resumes p.2 q.2) (showStep E h u) (showStep E h' u) := by
  cases hr with
  | chunks ht => exact (ht.step hok hok').map fun d d' hd => hd
  | empty hopen hchunks hchunks' hend hend' =>
    obtain ⟨t, hx, ht, hc, he⟩ := fetchStmtResult_of_empty (E := E) hchunks hend
    obtain ⟨t', hx', ht', hc', he'⟩ := fetchStmtResult_of_empty (E := E) hchunks' hend'
    unfold showStep
    rw [hx, hx']
    exact .ok ⟨rfl, .empty (ht'.trans (hopen.trans ht.symm)) hc hc' he he'⟩

/-- As long as both are in step, the application sees the same. -/
theorem Resumes.seen (hr : Resumes h h') {m : ℕ} (hok : ScanInStep E h m)
    (hok' : ScanInStep E h' m) :
    h'.seen E m = h.seen E m := by
  have hagree := Run.outputs_agree Resumes (fun h _ => FetchInStep h) (fun h _ => FetchInStep h)
    (fun h h' u hr hok hok' => hr.step (E := E) hok hok' u) hr hok hok'
  unfold OdbcHandleStmt.seen
  generalize Run.outputs (showStep E) h (List.replicate m ()) = x at hagree
  generalize Run.outputs (showStep E) h' (List.replicate m ()) = x' at hagree
  cases hagree with
  | error e => rfl
  | ok heq => exact congrArg Except.ok heq.1.symm

end Step

/-! ## What a commit does to the chunks -/

/-- `s` is `h` with the chunks `done` taken from the engine and stored, which leaves `r'` of
its result; its position may be another one. -/
def Taken (h s : OdbcHandleStmt ρ V) (done : List (DataChunk ρ)) (r' : QueryResult ρ) : Prop :=
  ∃ last idx current row prior seen, s =
    { h with
      res := some r'
      odbcFetcher :=
        { h.odbcFetcher with
          lastFetched := last
          chunks := h.odbcFetcher.chunks ++ done
          currentChunkIdx := idx
          currentChunk := current
          chunkRow := row
          priorChunkRow := prior
          resultsetEnd := seen } }

section Commit

variable {h s : OdbcHandleStmt ρ V} {done : List (DataChunk ρ)} {res res' : QueryResult ρ}

/-- One turn of the loop : a chunk is taken, or the end is seen. -/
theorem Taken.fetchNext (ht : Taken h s done res')
    (hleft : done ++ res'.chunksLeft = res.chunksLeft)
    (hf : res'.failure = none) (hend : s.odbcFetcher.resultsetEnd = false)
    (hcur : h.odbcFetcher.cursorType = .forwardOnly → res.pending = []) :
    (∃ s' done' res'', s.fetchNext = .ok (.success, s') ∧ Taken h s' done' res'' ∧
        done' ++ res''.chunksLeft = res.chunksLeft ∧ res''.failure = none ∧
        s'.odbcFetcher.resultsetEnd = false) ∨
      ∃ s', s.fetchNext = .ok (.noData, s') ∧ Taken h s' done res' ∧ res'.pending = [] ∧
        s'.odbcFetcher.resultsetEnd = true := by
  have hresult : s.res = some res' := by
    obtain ⟨_, _, _, _, _, _, rfl⟩ := ht
    rfl
  cases hp : res'.pending with
  | nil =>
    refine .inr ⟨_, fetchNext_of_done hend hresult hp hf, ?_, rfl, rfl⟩
    obtain ⟨_, _, _, _, _, _, rfl⟩ := ht
    exact ⟨_, _, _, _, _, _, rfl⟩
  | cons b bs =>
    have hne : h.odbcFetcher.cursorType ≠ .forwardOnly := by
      intro hfwd
      rw [QueryResult.chunksLeft_nil (hcur hfwd), List.append_eq_nil_iff] at hleft
      rw [QueryResult.pending_of_chunksLeft hleft.2] at hp
      cases hp
    let taken : DataChunk ρ := ⟨res'.fetched, res'.columnCount, b⟩
    let rest : QueryResult ρ := { res' with pending := bs, fetched := res'.fetched + 1 }
    let stored := ({ s with odbcFetcher := s.odbcFetcher.resetLastFetchedVariableVal }).storeChunk
      rest taken
    have htype : s.odbcFetcher.cursorType = h.odbcFetcher.cursorType := by
      obtain ⟨_, _, _, _, _, _, rfl⟩ := ht
      rfl
    have hstored : stored.odbcFetcher.chunks = s.odbcFetcher.chunks ++ [taken] :=
      if_neg (by rw [← htype] at hne; exact hne)
    obtain ⟨idx, c, -, hseat⟩ := setCurrentChunk_of_ne (h := stored) (by rw [hstored]; simp)
    have hnext : s.fetchNext = .ok (.success, stored.seat idx c) := by
      rw [fetchNext_of_pending hend hresult hp]
      exact congrArg Except.ok hseat
    refine .inl ⟨_, done ++ [taken], rest, hnext, ?_, ?_, hf, hend⟩
    · have hchunks : s.odbcFetcher.chunks = h.odbcFetcher.chunks ++ done := by
        obtain ⟨_, _, _, _, _, _, rfl⟩ := ht
        rfl
      have hall : stored.odbcFetcher.chunks = h.odbcFetcher.chunks ++ (done ++ [taken]) := by
        rw [hstored, hchunks, List.append_assoc]
      obtain ⟨_, _, _, _, _, seen, hh⟩ := ht
      refine ⟨⟨-1, -1, 0⟩, idx, some c, -1, -1, seen, ?_⟩
      rw [← hall]
      subst hh
      rfl
    · rw [← hleft, QueryResult.chunksLeft_cons hp, List.append_assoc]
      rfl

/-- The loop takes all the chunks that are left. -/
theorem materializeLoop_taken (hend : h.odbcFetcher.resultsetEnd = false) (hres : h.res = some res)
    (hf : res.failure = none)
    (hcur : h.odbcFetcher.cursorType = .forwardOnly → res.pending = []) {n : ℕ}
    {ret : SqlReturn} (hx : h.materializeLoop n = some (.ok (ret, s))) :
    ret = .noData ∧ ∃ res', Taken h s res.chunksLeft res' ∧ s.odbcFetcher.resultsetEnd = true := by
  refine DoWhile.run_invariant fetchNext SqlReturn.succeeded
    (fun s => s.odbcFetcher.resultsetEnd = false ∧ ∃ done res', Taken h s done res' ∧
      done ++ res'.chunksLeft = res.chunksLeft ∧ res'.failure = none)
    (fun x => ∀ ret s, x = .ok (ret, s) → ret = .noData ∧ ∃ res', Taken h s res.chunksLeft res' ∧
      s.odbcFetcher.resultsetEnd = true) ?_ ?_ ?_ ?_ hx ret s rfl
  · rintro s e - - ret s' hcontra
    cases hcontra
  · rintro s r s' ⟨hend, done, res', ht, hleft, hf⟩ hbody hagain
    rcases ht.fetchNext hleft hf hend hcur with
      ⟨s₁, done', res'', hnext, ht', hleft', hf', hend'⟩ | ⟨s₁, hnext, -⟩
    · obtain ⟨rfl, rfl⟩ := Prod.mk.inj (Except.ok.inj (hnext.symm.trans hbody))
      exact ⟨hend', done', res'', ht', hleft', hf'⟩
    · obtain ⟨rfl, rfl⟩ := Prod.mk.inj (Except.ok.inj (hnext.symm.trans hbody))
      cases hagain
  · rintro s r s' ⟨hend, done, res', ht, hleft, hf⟩ hbody hstop ret₁ s₁ heq
    cases heq
    rcases ht.fetchNext hleft hf hend hcur with
      ⟨s₁, done', res'', hnext, -⟩ | ⟨s₁, hnext, ht', hpend, hend'⟩
    · obtain ⟨rfl, rfl⟩ := Prod.mk.inj (Except.ok.inj (hnext.symm.trans hbody))
      cases hstop
    · obtain ⟨rfl, rfl⟩ := Prod.mk.inj (Except.ok.inj (hnext.symm.trans hbody))
      rw [QueryResult.chunksLeft_nil hpend, List.append_nil] at hleft
      rw [hleft] at ht'
      exact ⟨rfl, res', ht', hend'⟩
  · exact ⟨hend, [], res, ⟨_, _, _, _, _, _, by rw [← hres, List.append_nil]⟩, rfl, hf⟩

end Commit

/-! ## The states before a commit -/

/-- What the fetcher keeps : the current chunk is stored, and the only one for a forward-only
cursor; or the result has no rows. -/
inductive Kept (h : OdbcHandleStmt ρ V) : Prop
  | chunk {c : DataChunk ρ} {res : QueryResult ρ} (hcurrent : h.odbcFetcher.currentChunk = some c)
      (hmem : c ∈ h.odbcFetcher.chunks) (hres : h.res = some res) (hf : res.failure = none)
      (hseen : h.odbcFetcher.resultsetEnd = true → res.pending = [])
      (hfwd : h.odbcFetcher.cursorType = .forwardOnly → h.odbcFetcher.chunks = [c])
  | empty (hchunks : h.odbcFetcher.chunks = []) (hcurrent : h.odbcFetcher.currentChunk = none)
      (hend : h.odbcFetcher.resultsetEnd = true)

section Kept

variable {E : Engine ρ V} {h h' : OdbcHandleStmt ρ V} {ret : SqlReturn}

/-- The cursor moves to a stored chunk, or stays on its own. -/
theorem Kept.reseat (hk : Kept h) (hchunks : h'.odbcFetcher.chunks = h.odbcFetcher.chunks)
    (hcurrent : h'.odbcFetcher.currentChunk = h.odbcFetcher.currentChunk ∨
      ∃ c ∈ h.odbcFetcher.chunks, h'.odbcFetcher.currentChunk = some c)
    (hres : h'.res = h.res) (hend : h'.odbcFetcher.resultsetEnd = h.odbcFetcher.resultsetEnd)
    (htype : h'.odbcFetcher.cursorType = h.odbcFetcher.cursorType) : Kept h' := by
  cases hk with
  | @chunk c res hcur hmem hr hf hseen hfwd =>
    obtain ⟨c', hmem', hcur'⟩ : ∃ c' ∈ h.odbcFetcher.chunks, h'.odbcFetcher.currentChunk =
      some c' := by
      rcases hcurrent with heq | hex
      · exact ⟨c, hmem, heq.trans hcur⟩
      · exact hex
    refine .chunk hcur' (by rw [hchunks]; exact hmem')
      (hres.trans hr) hf (by rw [hend]; exact hseen) ?_
    rw [htype, hchunks]
    intro hforward
    have hone := hfwd hforward
    rw [hone] at hmem' ⊢
    rw [List.mem_singleton.1 hmem']
  | empty hnil hnone hseen =>
    refine .empty (hchunks.trans hnil) ?_ (hend.trans hseen)
    rcases hcurrent with heq | ⟨c, hmem, -⟩
    · exact heq.trans hnone
    · rw [hnil] at hmem
      cases hmem

theorem Kept.step (hk : Kept h) (hs : CursorStep h h') : Kept h' := by
  cases hs with
  | place | reset | refused => exact hk.reseat rfl (.inl rfl) rfl rfl rfl
  | seat hc => exact hk.reseat rfl (.inr ⟨_, List.mem_of_getElem? hc, rfl⟩) rfl rfl rfl
  | @taken res b bs idx c' hend hres hp hget =>
    cases hk with
    | @chunk c res' hcur hmem hr hf hseen hfwd =>
      obtain rfl := Option.some.inj (hres.symm.trans hr)
      have hmem' := List.mem_of_getElem? hget
      refine .chunk rfl hmem' rfl hf ?_ fun hforward => ?_
      · intro hseen'
        exact absurd (hend.symm.trans hseen') (by simp)
      · have hone : (h.taking res b bs).odbcFetcher.chunks = [⟨res.fetched, res.columnCount, b⟩] :=
          chunks_taking_of_forwardOnly hforward
        rw [hone] at hmem'
        obtain rfl := List.mem_singleton.1 hmem'
        exact hone
    | empty hnil hnone hseen => exact absurd (hend.symm.trans hseen) (by simp)
  | ended hend hres hp hf =>
    cases hk with
    | chunk hcur hmem hr hf hseen hfwd =>
      obtain rfl := Option.some.inj (hres.symm.trans hr)
      exact .chunk hcur hmem hr hf (fun _ => hp) hfwd
    | empty hnil hnone hseen => exact absurd (hend.symm.trans hseen) (by simp)
  | failed hend hres hp hf =>
    cases hk with
    | chunk hcur hmem hr hnone =>
      obtain rfl := Option.some.inj (hres.symm.trans hr)
      exact absurd (hnone.symm.trans hf) (by simp)
    | empty hnil hnone hseen => exact absurd (hend.symm.trans hseen) (by simp)

theorem Kept.deliver {d : Delivery ρ V} (hk : Kept h) (hx : h.deliver E = .ok d) : Kept d.h := by
  obtain ⟨row, count, last, diag, hh⟩ := sameChunk_deliver hx
  rw [hh]
  exact hk.reseat rfl (.inl rfl) rfl rfl rfl

theorem Kept.fetchStmtResult (hk : Kept h) {o : FetchOrientation} {off : ℤ} {d : Delivery ρ V}
    (hx : h.fetchStmtResult E o off = .ok d) : Kept d.h :=
  fetchStmtResult_invariant Kept.step Kept.deliver hk hx

end Kept

/-- A statement was executed, and its result is read without an error. -/
structure OpenResult (h : OdbcHandleStmt ρ V) (result : QueryResult ρ) : Prop where
  run : ∃ (k : ℕ) (a : ExecAnswers ρ V) (h₀ : OdbcHandleStmt ρ V) (x : Executed ρ V),
    h₀.batchExecuteStmt k a = some (.ok x) ∧ x.ret.succeeded = true ∧
      a.results (runs x.log - 1) = result ∧ Rebound x.h h
  failure : result.failure = none

theorem OpenResult.kept {h : OdbcHandleStmt ρ V} {result : QueryResult ρ}
    (hx : OpenResult h result) :
    Kept h := by
  obtain ⟨k, a, h₀, x, hrun, hret, hresult, hbound⟩ := hx.run
  have hi := (inFront_of_execute hrun hret hresult hx.failure).rebound hbound
  cases hp : result.pending with
  | nil =>
    rw [hp] at hi
    obtain ⟨-, hchunks, hend, hcurrent, -⟩ := hi
    exact .empty hchunks hcurrent hend
  | cons b bs =>
    rw [hp] at hi
    obtain ⟨c, ha, hchunks, -⟩ := hi
    obtain ⟨res, hres, hpend, hf, -⟩ := ha.res
    exact .chunk ha.current (by rw [hchunks]; simp) hres hf
      (fun hseen => hpend.trans (ha.seen hseen))
      fun _ => hchunks

/-- A call between an execution and a commit : a fetch, or one that reads a cell or sets what
a fetch reads of the application. -/
inductive CursorCall
  | fetch (o : FetchOrientation) (off : ℤ)
  | other

/-- What a call does to the handle. -/
def Calls (E : Engine ρ V) (h : OdbcHandleStmt ρ V) (call : CursorCall)
    (h' : OdbcHandleStmt ρ V) : Prop :=
  match call with
  | .fetch o off => ∃ d, h.fetchStmtResult E o off = .ok d ∧ d.h = h'
  | .other => ∃ bound desc ptr last diag, h' =
      { h with
        boundCols := bound
        rowDesc := desc
        rowsFetchedPtr := ptr
        odbcFetcher.lastFetched := last
        diag := diag }

/-- The calls after an execution keep the current chunk. -/
theorem Kept.run {E : Engine ρ V} {h h' : OdbcHandleStmt ρ V} {calls : List CursorCall}
    (hk : Kept h)
    (hrun : Run.Reaches (Calls E) h calls h') : Kept h' := by
  refine hrun.invariant (P := fun _ _ => True) Kept ?_ hk
    (Run.along_of_forall (fun _ _ _ => trivial) h)
  rintro h call h' hk - hcall
  cases call with
  | fetch o off =>
    obtain ⟨d, hd, rfl⟩ := hcall
    exact hk.fetchStmtResult hd
  | other =>
    obtain ⟨bound, desc, ptr, last, diag, rfl⟩ := hcall
    exact hk.reseat rfl (.inl rfl) rfl rfl rfl

/-! ## The commit -/

/-- `current_chunk_idx` is the number of the current chunk. `SQL_FETCH_ABSOLUTE` sets it to
zero when it runs off the end. -/
def IdxOfCurrent (h : OdbcHandleStmt ρ V) : Prop :=
  h.odbcFetcher.chunks[h.odbcFetcher.currentChunkIdx]? = h.odbcFetcher.currentChunk

section Commit

variable {E : Engine ρ V} {h h' : OdbcHandleStmt ρ V} {ret : SqlReturn} {n : ℕ}

theorem materialize_loop (hx : h.materialize n = some (.ok (ret, h'))) :
    ∃ ret₁ s, h.materializeLoop n = some (.ok (ret₁, s)) ∧
    h' = restorePosition h.odbcFetcher s := by
  obtain ⟨x, hloop, hmap⟩ := Option.map_eq_some_iff.1 hx
  obtain ⟨⟨ret₁, s⟩, rfl, hp⟩ := Outcome.map_eq_ok.1 hmap
  exact ⟨ret₁, s, hloop, (Prod.mk.inj hp).2.symm⟩

/-- The position is the one before, on a stored chunk. -/
theorem Kept.materialize (hk : Kept h) (hidx : IdxOfCurrent h)
    (hfwd : h.odbcFetcher.cursorType = .forwardOnly → h.pending = [])
    (hx : h.materialize n = some (.ok (ret, h'))) :
    Resumes h h' ∧ ∀ c, h'.odbcFetcher.currentChunk = some c → c ∈ h'.odbcFetcher.chunks := by
  obtain ⟨ret₁, s, hloop, hrestore⟩ := materialize_loop hx
  cases hk with
  | @chunk c res hcur hmem hres hf hseen hone =>
    have hend : h.odbcFetcher.resultsetEnd = false := by
      have hnot := (materialize_returns_iff (by simp [hres])).1 ⟨n, _, hx⟩
      cases hend : h.odbcFetcher.resultsetEnd with
      | false => rfl
      | true => exact absurd ⟨hend, List.ne_nil_of_mem hmem⟩ hnot
    have hpend : h.odbcFetcher.cursorType = .forwardOnly → res.pending = [] := by
      intro hforward
      have := hfwd hforward
      simpa [pending, hres] using this
    obtain ⟨-, res', ht, hseen'⟩ := materializeLoop_taken hend hres hf hpend hloop
    obtain ⟨pre, post, hchunks, hlen⟩ : ∃ pre post, h.odbcFetcher.chunks = pre ++ c :: post ∧
        h.odbcFetcher.currentChunkIdx = pre.length := by
      unfold IdxOfCurrent at hidx
      rw [hcur] at hidx
      obtain ⟨hlt, hget⟩ := List.getElem?_eq_some_iff.1 hidx
      refine ⟨h.odbcFetcher.chunks.take h.odbcFetcher.currentChunkIdx,
        h.odbcFetcher.chunks.drop (h.odbcFetcher.currentChunkIdx + 1), ?_,
        (List.length_take_of_le (Nat.le_of_lt hlt)).symm⟩
      rw [← hget, List.getElem_cons_drop, List.take_append_drop]
    obtain ⟨last, idx, current, row, prior, seen, rfl⟩ := ht
    have hh' : h' = h.onStore last (some res') (h.odbcFetcher.chunks ++ res.chunksLeft)
        pre.length true := by
      rw [hrestore, restorePosition, hcur]
      simp only [onStore, hlen, hcur]
      obtain rfl : seen = true := hseen'
      rfl
    refine ⟨.chunks ⟨hchunks, hcur, hlen, hres, hf, hseen, fun hforward => ?_, last, res', hh'⟩, ?_⟩
    · refine ⟨?_, hpend hforward⟩
      have hsingle := hchunks.symm.trans (hone hforward)
      have hlen := congrArg List.length hsingle
      simp only [List.length_append, List.length_cons, List.length_nil] at hlen
      exact List.length_eq_zero_iff.1 (by omega)
    · intro c' hc'
      rw [hh'] at hc' ⊢
      obtain rfl := Option.some.inj (hcur.symm.trans hc')
      exact List.mem_append_left _ hmem
  | empty hnil hnone hend =>
    have hstop : DoWhile.Ends OdbcHandleStmt.fetchNext SqlReturn.succeeded h (.ok (.noData, h)) :=
      DoWhile.ends_of_stop (by rw [fetchNext_of_end hend, setCurrentChunk_of_empty hnil]) rfl
    obtain ⟨-, rfl⟩ := Prod.mk.inj (Except.ok.inj (hstop.unique ⟨n, hloop⟩))
    have hh' : h' = h.beforeStart.2 := by rw [hrestore, restorePosition, hnone]
    rw [hh']
    refine ⟨.empty rfl hnil hnil hend hend, fun c hc => ?_⟩
    simp [OdbcHandleStmt.beforeStart, hnil, hnone] at hc

/-- The statement after a commit : the current chunk is stored, and as long as the fetches with
and without the commit are in step, they show the same. -/
theorem Kept.commit (hk : Kept h) (hidx : IdxOfCurrent h)
    (hfwd : h.odbcFetcher.cursorType = .forwardOnly → h.pending = [])
    (hx : h.materializeResult n = some (.ok (ret, h'))) :
    (∀ c, h'.odbcFetcher.currentChunk = some c → h'.odbcFetcher.owns c = true) ∧
      ∀ m, ScanInStep E h m → ScanInStep E h' m → h'.seen E m = h.seen E m := by
  suffices hboth : (∀ c, h'.odbcFetcher.currentChunk = some c → c ∈ h'.odbcFetcher.chunks) ∧
      ∀ m, ScanInStep E h m → ScanInStep E h' m → h'.seen E m = h.seen E m by
    exact ⟨fun c hc => List.any_eq_true.2 ⟨c, hboth.1 c hc, by simp⟩, hboth.2⟩
  by_cases hm : h.MaterializesResult
  · rw [materializeResult_of_result hm] at hx
    obtain ⟨hr, howns⟩ := hk.materialize hidx hfwd hx
    exact ⟨howns, fun m hok hok' => hr.seen hok hok'⟩
  · rw [materializeResult_of_not hm] at hx
    cases hx
    refine ⟨fun c hc => ?_, fun _ _ _ => rfl⟩
    cases hk with
    | chunk hcur hmem =>
      obtain rfl := Option.some.inj (hcur.symm.trans hc)
      exact hmem
    | empty _ hnone => cases hnone.symm.trans hc

end Commit

/-- The last statement of a connection after any calls on its result, with its cursor number
in order and, if it is forward-only, no chunk left with the engine : after a commit that
succeeds its current chunk is stored, and as long as the fetches with and without the commit
are in step, they show the same. -/
theorem commit_keeps_rows (E : Engine ρ V) {h₀ h : OdbcHandleStmt ρ V} {result : QueryResult ρ}
    (hx : OpenResult h₀ result) {calls : List CursorCall} (hrun : Run.Reaches (Calls E) h₀ calls h)
    (hidx : IdxOfCurrent h) (hfwd : h.odbcFetcher.cursorType = .forwardOnly → h.pending = [])
    {d d' : OdbcHandleDbc ρ V} (hlast : d.vecStmtRef.getLast? = some h) {n : ℕ}
    (hcommit : d.sqlEndTran n .commit = some (.ok (.success, d'))) :
    ∃ h', d'.vecStmtRef.getLast? = some h' ∧
      (∀ c, h'.odbcFetcher.currentChunk = some c → h'.odbcFetcher.owns c = true) ∧
      ∀ m, ScanInStep E h m → ScanInStep E h' m → h'.seen E m = h.seen E m := by
  obtain ⟨x, hmat, hmap⟩ := Option.map_eq_some_iff.1 hcommit
  obtain ⟨⟨ret, d₁⟩, rfl, hp⟩ := Outcome.map_eq_ok.1 hmap
  obtain rfl : d₁ = d' := (Prod.mk.inj hp).2
  simp only [OdbcHandleDbc.materializeResult, hlast] at hmat
  obtain ⟨y, hres, hmap'⟩ := Option.map_eq_some_iff.1 hmat
  obtain ⟨⟨ret', h'⟩, rfl, hp'⟩ := Outcome.map_eq_ok.1 hmap'
  obtain ⟨rfl, rfl⟩ := Prod.mk.inj hp'
  exact ⟨h', by simp, (hx.kept.run hrun).commit hidx hfwd hres⟩

theorem ScanReady.openResult {E : Engine ρ V} {h : OdbcHandleStmt ρ V} {result : QueryResult ρ}
    (hx : ScanReady E h result) : OpenResult h result := ⟨hx.run, hx.failure⟩

/-- The bytes of a scroll with both chunks stored, on the row `row` of the one numbered `idx`. -/
def storedBytes (b b' : Block ℕ) (row prior count : ℤ) (idx : ℕ) (seen : Bool) :
    OdbcHandleStmt ℕ ℕ :=
  { preparedBytes with
    rowDesc := {}
    opened := true
    res := some { queryResult 1 [] with fetched := 2 }
    odbcFetcher :=
      ⟨.static, count, ⟨-1, -1, 0⟩, [⟨0, 1, b⟩, ⟨1, 1, b'⟩], idx,
        [⟨0, 1, b⟩, ⟨1, 1, b'⟩][idx]?, row, prior, seen⟩ }

theorem storedBytes_unread (b b' : Block ℕ) (row prior count : ℤ) (idx : ℕ) (seen : Bool)
    {h h₁ : OdbcHandleStmt ℕ ℕ}
    (hmove : h.fetchNextChunk .next 0 = .ok (.success, storedBytes b b' row prior count idx seen))
    (hx : h.fetchNextChunk .next 0 = .ok (.success, h₁)) (k : ℕ) : h₁.Unread k := by
  obtain ⟨-, rfl⟩ := Prod.mk.inj (Except.ok.inj (hmove.symm.trans hx))
  exact .inl rfl

/-- Chunks of one row each, a commit on the first row, and the next fetch. -/
theorem commit_keeps_rows_bytes :
    ∃ d' h', (⟨[scrollBytes ⟨[1], by simp⟩ [⟨[2], by simp⟩] 0 (-1) 1 false], false⟩ :
        OdbcHandleDbc ℕ ℕ).sqlEndTran 2 .commit = some (.ok (.success, d')) ∧
      d'.vecStmtRef.getLast? = some h' ∧
      h'.seen byteEngine 1 =
        (scrollBytes ⟨[1], by simp⟩ [⟨[2], by simp⟩] 0 (-1) 1 false).seen byteEngine 1 := by
  let h := scrollBytes ⟨[1], by simp⟩ [⟨[2], by simp⟩] 0 (-1) 1 false
  let h' := storedBytes ⟨[1], by simp⟩ ⟨[2], by simp⟩ 0 (-1) 1 0 true
  have hcommit : (⟨[h], false⟩ : OdbcHandleDbc ℕ ℕ).sqlEndTran 2 .commit =
      some (.ok (.success, ⟨[h'], false⟩)) := rfl
  have hrun : Run.Reaches (Calls byteEngine)
      (scrollBytes ⟨[1], by simp⟩ [⟨[2], by simp⟩] (-1) (-1) 0 false) [.fetch .next 0] h :=
    ⟨_, ⟨_, rfl, rfl⟩, rfl⟩
  refine ⟨_, h', hcommit, rfl, ?_⟩
  obtain ⟨h'', hlast, -, hseen⟩ :=
    commit_keeps_rows byteEngine (scrollBytes_scanReady _ _).openResult hrun
    rfl nofun rfl hcommit
  obtain rfl := Option.some.inj hlast
  refine hseen 1 ⟨⟨?_, ?_⟩, fun _ _ => trivial⟩ ⟨⟨?_, ?_⟩, fun _ _ => trivial⟩
  · intro c last res hc hlast _
    obtain rfl := Option.some.inj hc
    obtain rfl := Option.some.inj hlast
    exact ⟨Iff.rfl, fun _ hlt => absurd hlt (Nat.lt_irrefl 1)⟩
  · exact fun h₁ c hx _ =>
      .inr (storedBytes_unread ⟨[1], by simp⟩ ⟨[2], by simp⟩ (-1) (-1) 1 1 false rfl hx _)
  · intro c last res hc hlast _
    obtain rfl := Option.some.inj hc
    obtain rfl := Option.some.inj hlast
    exact ⟨Iff.rfl, fun _ _ => .inl rfl⟩
  · exact fun h₁ c hx _ =>
      .inr (storedBytes_unread ⟨[1], by simp⟩ ⟨[2], by simp⟩ (-1) (-1) 1 1 true rfl hx _)

/-- A forward-only cursor on the first of two chunks of one row : the commit frees the chunk
the cursor is on, and the second row is lost. -/
theorem commit_frees_chunk :
    ∃ h : OdbcHandleStmt ℕ ℕ, OpenResult h (queryResult 1 [⟨[1], by simp⟩, ⟨[2], by simp⟩]) ∧
      ∃ d h₁, h.fetchStmtResult byteEngine .next 0 = .ok d ∧ d.h = h₁ ∧
      ∃ d' h', (⟨[h₁], false⟩ : OdbcHandleDbc ℕ ℕ).sqlEndTran 2 .commit =
      some (.ok (.success, d')) ∧
        d'.vecStmtRef.getLast? = some h' ∧
        (∃ c, h'.odbcFetcher.currentChunk = some c ∧ h'.odbcFetcher.owns c = false) ∧
        h'.seen byteEngine 1 ≠ h₁.seen byteEngine 1 := by
  refine ⟨{ scrollBytes ⟨[1], by simp⟩ [⟨[2], by simp⟩] (-1) (-1) 0 false with
      odbcFetcher.cursorType := .forwardOnly }, ?_, _, _, rfl, rfl, _, _, rfl, rfl,
        ⟨_, rfl, rfl⟩, ?_⟩
  · exact ⟨⟨1, (select 1 [⟨[1], by simp⟩, ⟨[2], by simp⟩]).exec, preparedBytes, _, rfl, rfl, rfl,
      preparedBytes.boundCols, {}, 8, .forwardOnly, [], rfl⟩, rfl⟩
  · intro heq
    have hcodes : (.ok [.noData] : Except Fault (List SqlReturn)) = .ok [.success] :=
      congrArg (fun x => x.map (List.map Prod.fst)) heq
    cases hcodes

end OdbcHandleStmt

end HaybarnOdbc
