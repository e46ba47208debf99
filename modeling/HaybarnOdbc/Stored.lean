import HaybarnOdbc.Scan

/-!
# Moving over the stored chunks

A cursor that is not forward-only keeps the chunks it took from the engine. `OnChunk` says
where it is among them, also on one that is not the last. `SQL_FETCH_NEXT` compares the row
with the size of the last stored chunk and not of the current one, and asks the engine for
a chunk before it steps to a stored one : it is right while the two sizes lead to the same
answer and the engine has a chunk or is known to have none (`NextInStep`). It then goes on
in the current chunk, steps to the next one, or finds the end (`move_within`,
`move_chunk`, `move_end`).
-/

namespace HaybarnOdbc

variable {ρ V : Type}

namespace OdbcHandleStmt

/-- What a fetch answers : its code, where a warning is a success, and the rows. -/
def Delivery.answer (d : Delivery ρ V) : SqlReturn × List ρ :=
  (if d.ret.succeeded then .success else d.ret, d.rows)

/-- The answer with a rowset, or without data. -/
def replyOf : Option (List ρ) → SqlReturn × List ρ
  | some r => (.success, r)
  | none => (.noData, [])

theorem Delivers.answer {r : Option (List ρ)} {d : Delivery ρ V} (hd : Delivers r d) :
    d.answer = replyOf r := by
  cases r with
  | none => simp [Delivery.answer, replyOf, hd.1, hd.2.1, SqlReturn.succeeded]
  | some r => simp only [Delivery.answer, replyOf, hd.1, hd.2.1, if_true]

/-- The stored chunks and the ones the engine has left. -/
def blocksOf (chunks : List (DataChunk ρ)) (bs : List (Block ρ)) : List (Block ρ) :=
  chunks.map DataChunk.block ++ bs

theorem blocksOf_append (pre post : List (DataChunk ρ)) (bs : List (Block ρ)) :
    blocksOf (pre ++ post) bs = pre.map DataChunk.block ++ blocksOf post bs := by
  simp [blocksOf]

/-- The rows of stored chunks and of the ones the engine has left. -/
def rowsOf (chunks : List (DataChunk ρ)) (bs : List (Block ρ)) : List ρ :=
  (blocksOf chunks bs).flatMap Block.rows

/-- The cursor is on the chunk `c` of the stored chunks `pre`, `c`, `post`; the engine has the
chunks `bs` left, and a fetch reads all the rows. -/
structure OnChunk (E : Engine ρ V) (h : OdbcHandleStmt ρ V) (pre : List (DataChunk ρ))
    (c : DataChunk ρ) (post : List (DataChunk ρ)) (bs : List (Block ρ)) : Prop where
  cursorType : h.odbcFetcher.cursorType ≠ .forwardOnly
  chunks : h.odbcFetcher.chunks = pre ++ c :: post
  current : h.odbcFetcher.currentChunk = some c
  idx : h.odbcFetcher.currentChunkIdx = pre.length
  res : ∃ res, h.res = some res ∧ res.pending = bs ∧ res.failure = none ∧
    (∀ d ∈ pre ++ c :: post, d.columnCount = res.columnCount) ∧
    Readable E h res.columnCount (blocksOf (pre ++ c :: post) bs)
  seen : h.odbcFetcher.resultsetEnd = true → bs = []

/-- The number of rows of stored chunks. -/
def offset (chunks : List (DataChunk ρ)) : ℕ := (chunks.flatMap DataChunk.rows).length

@[simp] theorem offset_nil : offset ([] : List (DataChunk ρ)) = 0 := rfl

theorem offset_concat (pre : List (DataChunk ρ)) (c : DataChunk ρ) :
    offset (pre ++ [c]) = offset pre + c.size := by
  simp [offset, DataChunk.size]

theorem OnChunk.deref {E : Engine ρ V} {h : OdbcHandleStmt ρ V} {pre post : List (DataChunk ρ)}
    {c : DataChunk ρ} {bs : List (Block ρ)} (hc : OnChunk E h pre c post bs) :
    h.odbcFetcher.deref = .ok c :=
  OdbcFetch.deref_eq_ok hc.current (by rw [hc.chunks]; simp)

theorem OnChunk.of_same {E : Engine ρ V} {h h' : OdbcHandleStmt ρ V} {pre post : List (DataChunk ρ)}
    {c : DataChunk ρ} {bs : List (Block ρ)} (hc : OnChunk E h pre c post bs)
    (hs : SameBindings h h')
    (htype : h'.odbcFetcher.cursorType = h.odbcFetcher.cursorType)
    (hchunks : h'.odbcFetcher.chunks = h.odbcFetcher.chunks)
    (hcurrent : h'.odbcFetcher.currentChunk = h.odbcFetcher.currentChunk)
    (hidx : h'.odbcFetcher.currentChunkIdx = h.odbcFetcher.currentChunkIdx) (hres : h'.res = h.res)
    (hend : h'.odbcFetcher.resultsetEnd = true → bs = []) : OnChunk E h' pre c post bs where
  cursorType := by rw [htype]; exact hc.cursorType
  chunks := hchunks.trans hc.chunks
  current := hcurrent.trans hc.current
  idx := hidx.trans hc.idx
  res := by
    obtain ⟨res, hr, hp, hf, hcols, hread⟩ := hc.res
    exact ⟨res, hres.trans hr, hp, hf, hcols, hread.of_same hs (List.Subset.refl _)⟩
  seen := hend

/-- The cursor in front of the first chunk, the only one that was taken. -/
theorem InFront.onChunk {E : Engine ρ V} {h : OdbcHandleStmt ρ V} {cols : ℕ} {b : Block ρ}
    {bs : List (Block ρ)} (hi : InFront h cols (b :: bs))
    (hcur : h.odbcFetcher.cursorType ≠ .forwardOnly)
    (hread : Readable E h cols (b :: bs)) :
    ∃ c, OnChunk E h [] c [] bs ∧ c.block = b ∧ h.opened = true ∧ h.odbcFetcher.chunkRow = -1 ∧
      h.odbcFetcher.priorChunkRow = -1 := by
  obtain ⟨c, ha, hchunks, rfl, hcols, hrow, hprior, -⟩ := hi
  obtain ⟨res, hres, hpend, hf, hrescols⟩ := ha.res
  refine ⟨c, ⟨hcur, hchunks, ha.current, ?_, ⟨res, hres, hpend, hf, ?_, ?_⟩, ha.seen⟩, rfl,
    ha.opened, hrow,
    hprior⟩
  · have hidx := ha.idx
    rw [hchunks] at hidx
    simpa using hidx
  · intro d hd
    obtain rfl := List.mem_singleton.1 hd
    rw [hcols, hrescols]
  · rw [hrescols]
    exact hread

/-- The delivery of the next rowset of the current chunk. -/
theorem OnChunk.deliver {E : Engine ρ V} {h : OdbcHandleStmt ρ V} {pre post : List (DataChunk ρ)}
    {c : DataChunk ρ} {bs : List (Block ρ)} (hc : OnChunk E h pre c post bs)
    (hlow : -1 ≤ h.odbcFetcher.chunkRow) (hrow : h.odbcFetcher.chunkRow + 1 < c.size)
    (hunread : h.boundCols = [] ∨ h.Unread (h.rowset c).length) :
    ∃ d, h.deliver E = .ok d ∧ Delivers (some (h.rowset c)) d ∧ OnChunk E d.h pre c post bs ∧
      Advanced h (h.rowset c).length d.h := by
  obtain ⟨res, hres, hp, hf, hcols, hr⟩ := hc.res
  have hread : Readable E h res.columnCount [c.block] := by
    refine hr.of_same ⟨rfl, rfl, rfl, rfl⟩ ?_
    intro b hb
    obtain rfl := List.mem_singleton.1 hb
    simp [blocksOf]
  obtain ⟨d, hd, hdel, hadv, -⟩ :=
    deliver_readable hc.deref hlow hrow hunread (hcols c (by simp)) hread
  refine ⟨d, hd, hdel, ?_, hadv⟩
  have hs := hadv.sameBindings
  obtain ⟨count, last, diag, hh⟩ := hadv
  rw [hh] at hs ⊢
  exact hc.of_same hs rfl rfl rfl rfl rfl hc.seen

theorem rowsOf_split (pre post : List (DataChunk ρ)) (c : DataChunk ρ) (bs : List (Block ρ)) :
    rowsOf (pre ++ c :: post) bs = pre.flatMap DataChunk.rows ++ (c.rows ++ rowsOf post bs) := by
  have hpre : (pre.map DataChunk.block).flatMap Block.rows = pre.flatMap DataChunk.rows := by
    rw [List.flatMap_map]
    rfl
  simp only [rowsOf, blocksOf, List.map_append, List.map_cons, List.append_assoc, List.cons_append,
    List.flatMap_append, List.flatMap_cons, hpre]
  rfl

/-- The row of a stored chunk. -/
theorem getElem?_rowsOf (pre post : List (DataChunk ρ)) (c : DataChunk ρ)
    (bs : List (Block ρ)) {j : ℕ}
    (hj : j < c.size) : (rowsOf (pre ++ c :: post) bs)[offset pre + j]? = c.rows[j]? := by
  have hlen : j < c.rows.length := hj
  unfold offset
  rw [rowsOf_split, List.getElem?_append_right (Nat.le_add_right _ _), Nat.add_sub_cancel_left,
    List.getElem?_append_left hlen]

theorem rowsOf_length (pre post : List (DataChunk ρ)) (c : DataChunk ρ) (bs : List (Block ρ)) :
    (rowsOf (pre ++ c :: post) bs).length = offset pre + c.size + (rowsOf post bs).length := by
  simp only [rowsOf_split, offset, DataChunk.size, List.length_append]
  omega

theorem rowsOf_length_pos {post : List (DataChunk ρ)} {bs : List (Block ρ)}
    (hne : ¬(post = [] ∧ bs = [])) : 0 < (rowsOf post bs).length := by
  cases post with
  | cons c post =>
    have hlen := rowsOf_length [] post c bs
    have hsize := c.size_pos
    rw [List.nil_append] at hlen
    omega
  | nil =>
    cases bs with
    | nil => exact absurd ⟨rfl, rfl⟩ hne
    | cons b bs =>
      have hpos := List.length_pos_iff.2 b.ne
      simp only [rowsOf, blocksOf, List.map_nil, List.nil_append, List.flatMap_cons,
        List.length_append]
      omega

/-! ## `SQL_FETCH_NEXT` -/

/-- `SQL_FETCH_NEXT` finds the end of the current chunk where the last stored chunk would have
it, and there does not run into the end of the engine's result for the first time while it
has a stored chunk to step to. -/
def NextInStep (h : OdbcHandleStmt ρ V) : Prop :=
  ∀ c last res, h.odbcFetcher.currentChunk = some c → h.odbcFetcher.chunks.getLast? = some last →
    h.res = some res →
    ((last.size : ℤ) ≤ h.odbcFetcher.chunkRow + 1 ↔ (c.size : ℤ) ≤ h.odbcFetcher.chunkRow + 1) ∧
      ((c.size : ℤ) ≤ h.odbcFetcher.chunkRow + 1 →
        h.odbcFetcher.currentChunkIdx + 1 < h.odbcFetcher.chunks.length →
        h.odbcFetcher.resultsetEnd = true ∨ res.pending ≠ [])

section Next

variable {E : Engine ρ V} {h : OdbcHandleStmt ρ V} {pre post : List (DataChunk ρ)} {c : DataChunk ρ}
  {bs : List (Block ρ)}

theorem requireFetch_iff {last : DataChunk ρ} (hlast : h.odbcFetcher.chunks.getLast? = some last) :
    h.odbcFetcher.requireFetch = true ↔ (last.size : ℤ) ≤ h.odbcFetcher.chunkRow + 1 := by
  simp only [OdbcFetch.requireFetch, hlast, decide_eq_true_eq]
  omega

theorem setCurrentChunk_of_stored (hcur : h.odbcFetcher.cursorType ≠ .forwardOnly) {c : DataChunk ρ}
    (hc : h.odbcFetcher.chunks[h.odbcFetcher.currentChunkIdx + 1]? = some c) :
    h.setCurrentChunk = (.success, h.seat (h.odbcFetcher.currentChunkIdx + 1) c) := by
  have hne : h.odbcFetcher.chunks ≠ [] := by
    intro h0
    simp [h0] at hc
  unfold setCurrentChunk
  simp only [List.getLast?_eq_some_getLast hne, hc]
  rw [if_neg hcur]

/-- Stepping to the next stored chunk. -/
theorem OnChunk.seat {pre post : List (DataChunk ρ)} {c c' : DataChunk ρ} {bs : List (Block ρ)}
    (hc : OnChunk E h pre c (c' :: post) bs) :
    h.setCurrentChunk = (.success, h.seat (pre.length + 1) c') ∧
      OnChunk E (h.seat (pre.length + 1) c') (pre ++ [c]) c' post bs := by
  have hsplit : pre ++ c :: c' :: post = pre ++ [c] ++ c' :: post := by simp
  have hchunks := hc.chunks.trans hsplit
  constructor
  · rw [← hc.idx]
    refine setCurrentChunk_of_stored hc.cursorType ?_
    rw [hc.idx, hchunks]
    simp
  · obtain ⟨res, hres, hpend, hf, hcols, hr⟩ := hc.res
    rw [hsplit] at hcols hr
    exact ⟨hc.cursorType, hchunks, rfl, by simp [OdbcHandleStmt.seat],
      ⟨res, hres, hpend, hf, hcols, hr.of_same ⟨rfl, rfl, rfl, rfl⟩ (List.Subset.refl _)⟩, hc.seen⟩

/-- Storing a chunk of the engine behind the others. -/
theorem OnChunk.store {pre post : List (DataChunk ρ)} {c : DataChunk ρ} {b : Block ρ}
    {bs : List (Block ρ)} (hc : OnChunk E h pre c post (b :: bs))
    (hend : h.odbcFetcher.resultsetEnd = false) :
    ∃ h₁ taken, h.fetchNext = .ok h₁.setCurrentChunk ∧ OnChunk E h₁ pre c (post ++ [taken]) bs ∧
      h₁.odbcFetcher.lastFetched.length = 0 ∧ taken.block = b ∧ h₁.opened = h.opened := by
  obtain ⟨res, hres, hpend, hf, hcols, hr⟩ := hc.res
  refine ⟨_, ⟨res.fetched, res.columnCount, b⟩, fetchNext_of_pending hend hres hpend, ?_,
    rfl, rfl, rfl⟩
  refine ⟨hc.cursorType, ?_, hc.current, hc.idx, ⟨_, rfl, rfl, hf, ?_, ?_⟩, ?_⟩
  · simp [storeChunk, OdbcFetch.resetLastFetchedVariableVal, hc.cursorType, hc.chunks]
  · intro d hd
    have hd' : d ∈ pre ++ c :: post ∨ d = ⟨res.fetched, res.columnCount, b⟩ := by
      simpa [or_assoc] using hd
    rcases hd' with hd | rfl
    · exact hcols d hd
    · rfl
  · have hblocks : blocksOf (pre ++ c :: (post ++ [⟨res.fetched, res.columnCount, b⟩])) bs =
        blocksOf (pre ++ c :: post) (b :: bs) := by simp [blocksOf]
    rw [hblocks]
    exact hr.of_same ⟨rfl, rfl, rfl, rfl⟩ (List.Subset.refl _)
  · intro hseen
    exact absurd (hend.symm.trans hseen) (by simp)

/-- The cursor goes on in the current chunk. -/
theorem OnChunk.move_within (hc : OnChunk E h pre c post bs)
    (hreq : ¬h.odbcFetcher.requireFetch = true) :
    h.fetchNextChunk .next 0 = .ok (.success, h.noted) ∧ OnChunk E h.noted pre c post bs := by
  refine ⟨?_, hc.of_same ⟨rfl, rfl, rfl, rfl⟩ rfl rfl rfl rfl rfl hc.seen⟩
  rw [fetchNextChunk_next, if_neg hreq]

/-- The cursor steps in front of the next chunk, which is stored or with the engine. The cell
read last stays noted unless a chunk is taken from the engine. -/
theorem OnChunk.move_chunk (hc : OnChunk E h pre c post bs)
    (hreq : h.odbcFetcher.requireFetch = true)
    (hmore : (h.odbcFetcher.resultsetEnd = true ∧ post ≠ []) ∨
      (h.odbcFetcher.resultsetEnd = false ∧ bs ≠ [])) :
    ∃ h' c' post' bs', h.fetchNextChunk .next 0 = .ok (.success, h') ∧
      OnChunk E h' (pre ++ [c]) c' post' bs' ∧
      blocksOf (c' :: post') bs' = blocksOf post bs ∧
      h'.odbcFetcher.chunkRow = -1 ∧ h'.odbcFetcher.priorChunkRow = -1 ∧
      ((h.odbcFetcher.resultsetEnd = true ∧
        h'.odbcFetcher.lastFetched = h.odbcFetcher.lastFetched) ∨
        h'.odbcFetcher.lastFetched.length = 0) ∧ h'.opened = h.opened := by
  have hnoted : OnChunk E h.noted pre c post bs :=
    hc.of_same ⟨rfl, rfl, rfl, rfl⟩ rfl rfl rfl rfl rfl hc.seen
  have hmove : h.fetchNextChunk .next 0 = h.noted.fetchNext := by
    have hne : ¬(h.odbcFetcher.resultsetEnd = true ∧
        h.odbcFetcher.currentChunkIdx + 1 = h.odbcFetcher.chunks.length) := by
      rw [hc.idx, hc.chunks, List.length_append, List.length_cons]
      rintro ⟨hend, hlen⟩
      rcases hmore with ⟨-, hne⟩ | ⟨hend', -⟩
      · exact hne (List.length_eq_zero_iff.1 (by omega))
      · exact absurd (hend'.symm.trans hend) (by simp)
    rw [fetchNextChunk_next, if_pos hreq, if_neg hne]
  rcases hmore with ⟨hend, hne⟩ | ⟨hend, hne⟩
  · obtain ⟨c', post, rfl⟩ := List.exists_cons_of_ne_nil hne
    obtain ⟨hset, hseat⟩ := hnoted.seat
    rw [fetchNext_of_end (h := h.noted) hend, hset] at hmove
    exact ⟨_, c', post, bs, hmove, hseat, rfl, rfl, rfl, .inl ⟨hend, rfl⟩, rfl⟩
  · obtain ⟨b, bs, rfl⟩ := List.exists_cons_of_ne_nil hne
    obtain ⟨h₁, taken, hnext, hstored, hlast, hblock, hopen⟩ := hnoted.store hend
    obtain ⟨c', post', hpost⟩ : ∃ c' post', post ++ [taken] = c' :: post' := by
      cases post with
      | nil => exact ⟨taken, [], rfl⟩
      | cons c' post => exact ⟨c', post ++ [taken], rfl⟩
    have hblocks : blocksOf (c' :: post') bs = blocksOf post (b :: bs) := by
      rw [← hpost]
      simp [blocksOf, hblock]
    rw [hpost] at hstored
    obtain ⟨hset, hseat⟩ := hstored.seat
    rw [hnext, hset] at hmove
    exact ⟨_, c', post', bs, hmove, hseat, hblocks, rfl, rfl, .inr hlast, hopen⟩

/-- The cursor finds the end. -/
theorem OnChunk.move_end (hc : OnChunk E h pre c [] []) (hreq : h.odbcFetcher.requireFetch = true) :
    ∃ h', h.fetchNextChunk .next 0 = .ok (.noData, h') ∧ OnChunk E h' pre c [] [] ∧
      h'.odbcFetcher.resultsetEnd = true ∧ h'.odbcFetcher.chunkRow = h.odbcFetcher.chunkRow ∧
      h'.odbcFetcher.priorChunkRow = h.odbcFetcher.chunkRow ∧ h'.opened = h.opened := by
  cases hend : h.odbcFetcher.resultsetEnd with
  | true =>
    refine ⟨h.noted, ?_, hc.of_same ⟨rfl, rfl, rfl, rfl⟩ rfl rfl rfl rfl rfl hc.seen, hend,
      rfl, rfl, rfl⟩
    rw [fetchNextChunk_next, if_pos hreq, if_pos ⟨hend, by rw [hc.idx, hc.chunks]; simp⟩]
  | false =>
    obtain ⟨res, hres, hpend, hf, -⟩ := hc.res
    have hmove := fetchNextChunk_next h 0
    rw [if_pos hreq, if_neg (by simp [hend]),
      fetchNext_of_done (h := h.noted) hend hres hpend hf] at hmove
    exact ⟨_, hmove, hc.of_same ⟨rfl, rfl, rfl, rfl⟩ rfl rfl rfl rfl rfl fun _ => rfl, rfl,
      rfl, rfl, rfl⟩

theorem fetchNextChunk_prior (hcur : h.odbcFetcher.cursorType ≠ .forwardOnly) :
    h.fetchNextChunk .prior 0 = h.setPriorCurrentChunk := by
  unfold fetchNextChunk
  rw [if_neg (by simp [hcur])]

theorem fetchNextChunk_first (hcur : h.odbcFetcher.cursorType ≠ .forwardOnly) :
    h.fetchNextChunk .first 0 = h.setFirstCurrentChunk := by
  unfold fetchNextChunk
  rw [if_neg (by simp [hcur])]

/-- The cursor goes in front of the first chunk. -/
theorem OnChunk.move_first (hc : OnChunk E h pre c post bs) :
    ∃ c₀ rest, pre ++ c :: post = c₀ :: rest ∧
      h.fetchNextChunk .first 0 = .ok (.success, h.beforeStart.2) ∧
      OnChunk E h.beforeStart.2 [] c₀ rest bs := by
  obtain ⟨c₀, rest, hsplit⟩ : ∃ c₀ rest, pre ++ c :: post = c₀ :: rest := by
    cases pre with
    | nil => exact ⟨c, post, rfl⟩
    | cons c₀ pre => exact ⟨c₀, pre ++ c :: post, rfl⟩
  have hchunks : h.odbcFetcher.chunks = c₀ :: rest := hc.chunks.trans hsplit
  have hcurrent : h.beforeStart.2.odbcFetcher.currentChunk = some c₀ := by
    simp [beforeStart, hchunks]
  have hmove : h.fetchNextChunk .first 0 = .ok (.success, h.beforeStart.2) := by
    rw [fetchNextChunk_first hc.cursorType, setFirstCurrentChunk]
    simp only [hcurrent]
  obtain ⟨res, hres, hpend, hf, hcols, hr⟩ := hc.res
  rw [hsplit] at hcols hr
  exact ⟨c₀, rest, hsplit, hmove, hc.cursorType, hchunks, hcurrent, rfl,
    ⟨res, hres, hpend, hf, hcols, hr.of_same ⟨rfl, rfl, rfl, rfl⟩ (List.Subset.refl _)⟩, hc.seen⟩

/-- In step, `SQL_FETCH_NEXT` looks for a chunk exactly at the end of the current one, and there
finds the next one if there is one. -/
theorem OnChunk.inStep (hc : OnChunk E h pre c post bs) (hok : NextInStep h) :
    (h.odbcFetcher.requireFetch = true ↔ (c.size : ℤ) ≤ h.odbcFetcher.chunkRow + 1) ∧
      (h.odbcFetcher.requireFetch = true → ¬(post = [] ∧ bs = []) →
        (h.odbcFetcher.resultsetEnd = true ∧ post ≠ []) ∨
          (h.odbcFetcher.resultsetEnd = false ∧ bs ≠ [])) := by
  obtain ⟨last, hlast⟩ : ∃ last, h.odbcFetcher.chunks.getLast? = some last := by
    rw [hc.chunks]
    exact ⟨_, List.getLast?_eq_some_getLast (by simp)⟩
  obtain ⟨res, hres, hpend, -⟩ := hc.res
  obtain ⟨hsame, hmore⟩ := hok c last res hc.current hlast hres
  rw [← requireFetch_iff hlast] at hsame
  rw [hc.idx, hc.chunks, hpend] at hmore
  refine ⟨hsame, fun hreq hend => ?_⟩
  cases hseen : h.odbcFetcher.resultsetEnd with
  | true => exact .inl ⟨rfl, fun hpost => hend ⟨hpost, hc.seen hseen⟩⟩
  | false =>
    refine .inr ⟨rfl, fun hbs => ?_⟩
    have hpost : 0 < post.length := List.length_pos_iff.2 fun hpost => hend ⟨hpost, hbs⟩
    rcases hmore (hsame.1 hreq) (by simp; omega) with hseen' | hne
    · exact absurd (hseen.symm.trans hseen') (by simp)
    · exact hne hbs

end Next

end OdbcHandleStmt

end HaybarnOdbc
