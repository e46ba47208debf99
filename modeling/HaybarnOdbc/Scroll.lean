import HaybarnOdbc.Stored

/-!
# Scrolling by single rows

A cursor that is not forward-only goes back and forth over the chunks it stored. `Reference`
is the cursor over the flat list of rows : a position between `0`, in front of the first
row, and one past the last row.

`Positioned` ties the two together. A position is the current chunk with the row in it, and
`priorChunkRow` is the row in front of it, or the row itself once a fetch has run off the
end; so that `SQL_FETCH_PRIOR` finds the row before, or the last one. A request is in step
with the reference if `SQL_FETCH_NEXT` is, and no cell of the row it leads to is noted as
read (`ScrollInStep`).
-/

namespace HaybarnOdbc

variable {ρ V : Type}

/-- The requests of a scroll. -/
inductive ScrollRequest
  | next
  | prior
  | first
  deriving DecidableEq, Repr

/-- The orientation that a request is called with. -/
def ScrollRequest.orientation : ScrollRequest → FetchOrientation
  | .next => .next
  | .prior => .prior
  | .first => .first

/-! ## The reference cursor -/

namespace Reference

/-- The position after a request, over `n` rows. -/
def move (n p : ℕ) : ScrollRequest → ℕ
  | .next => min (p + 1) (n + 1)
  | .prior => p - 1
  | .first => 1

/-- What the cursor answers at a position. -/
def answer (rows : List ρ) (p : ℕ) : SqlReturn × List ρ :=
  match p with
  | 0 => (.noData, [])
  | p + 1 =>
    match rows[p]? with
    | some row => (.success, [row])
    | none => (.noData, [])

/-- The reference cursor as a machine : a request is answered from where it moves to. -/
def step (rows : List ρ) (p : ℕ) (o : ScrollRequest) : Except Fault ((SqlReturn × List ρ) × ℕ) :=
  .ok (answer rows (move rows.length p o), move rows.length p o)

end Reference

namespace OdbcHandleStmt

/-- One request of a scroll. -/
def scrollStep (E : Engine ρ V) (h : OdbcHandleStmt ρ V) (o : ScrollRequest) :
    Except Fault ((SqlReturn × List ρ) × OdbcHandleStmt ρ V) :=
  (h.fetch E o.orientation 0).map fun d => (d.answer, d.h)

/-! ## The position of a scroll -/

/-- The position of the handle in the rows. -/
inductive Positioned (E : Engine ρ V) (rows : List ρ) (h : OdbcHandleStmt ρ V) : ℕ → Prop
  | before {c : DataChunk ρ} {post : List (DataChunk ρ)} {bs : List (Block ρ)}
      (hc : OnChunk E h [] c post bs) (hrows : rowsOf (c :: post) bs = rows)
      (hrow : h.odbcFetcher.chunkRow = -1) (hprior : h.odbcFetcher.priorChunkRow ≤ -1)
      (hsingle : h.rowsetSize = 1) : Positioned E rows h 0
  | on {pre : List (DataChunk ρ)} {c : DataChunk ρ} {post : List (DataChunk ρ)}
    {bs : List (Block ρ)}
      (hc : OnChunk E h pre c post bs) (hrows : rowsOf (pre ++ c :: post) bs = rows) {j : ℕ}
      (hj : j < c.size) (hrow : h.odbcFetcher.chunkRow = j)
      (hprior : h.odbcFetcher.priorChunkRow = j - 1) (hsingle : h.rowsetSize = 1) :
      Positioned E rows h (offset pre + j + 1)
  | after {pre : List (DataChunk ρ)} {c : DataChunk ρ} (hc : OnChunk E h pre c [] [])
      (hrows : rowsOf (pre ++ [c]) [] = rows) (hend : h.odbcFetcher.resultsetEnd = true)
      (hrow : h.odbcFetcher.chunkRow = c.size - 1)
      (hprior : h.odbcFetcher.priorChunkRow = h.odbcFetcher.chunkRow) (hsingle : h.rowsetSize = 1) :
      Positioned E rows h (rows.length + 1)
  | empty {p : ℕ} (hrows : rows = []) (hcur : h.odbcFetcher.cursorType ≠ .forwardOnly)
      (hchunks : h.odbcFetcher.chunks = []) (hcurrent : h.odbcFetcher.currentChunk = none)
      (hidx : h.odbcFetcher.currentChunkIdx = 0) (hend : h.odbcFetcher.resultsetEnd = true)
      (hrow : h.odbcFetcher.chunkRow = -1) (hprior : h.odbcFetcher.priorChunkRow ≤ -1)
      (hsingle : h.rowsetSize = 1) : Positioned E rows h p

/-- The cursor is in front of the row `j` of the current chunk, of which nothing was read. -/
structure InFrontOf (E : Engine ρ V) (h : OdbcHandleStmt ρ V) (pre : List (DataChunk ρ))
    (c : DataChunk ρ) (post : List (DataChunk ρ)) (bs : List (Block ρ)) (j : ℕ) : Prop where
  onChunk : OnChunk E h pre c post bs
  lt : j < c.size
  row : h.odbcFetcher.chunkRow = j - 1
  prior : h.odbcFetcher.priorChunkRow = j - 1
  unread : h.boundCols = [] ∨ h.Unread 1
  single : h.rowsetSize = 1

/-- The delivery of a single row. -/
theorem InFrontOf.deliver {E : Engine ρ V} {rows : List ρ} {h : OdbcHandleStmt ρ V}
    {pre post : List (DataChunk ρ)} {c : DataChunk ρ} {bs : List (Block ρ)} {j : ℕ}
    (hi : InFrontOf E h pre c post bs j) (hrows : rowsOf (pre ++ c :: post) bs = rows) :
    ∃ d, h.deliver E = .ok d ∧ d.answer = Reference.answer rows (offset pre + j + 1) ∧
      Positioned E rows d.h (offset pre + j + 1) := by
  have hrow := hi.row
  have hlt := hi.lt
  have hlen : j < c.rows.length := hi.lt
  have hfirst : h.firstRow = j := by
    have := firstRow_of_low (h := h) (by omega)
    omega
  have hset : h.rowset c = [c.rows[j]] := by
    simp only [rowset, hfirst, hi.single, List.drop_eq_getElem_cons hlen]
    rfl
  obtain ⟨d, hd, hdel, hc', hadv⟩ := hi.onChunk.deliver (by omega) (by omega)
    (by rw [hset]; exact hi.unread)
  refine ⟨d, hd, ?_, ?_⟩
  · have hget : rows[offset pre + j]? = some c.rows[j] := by
      rw [← hrows, getElem?_rowsOf _ _ _ _ hi.lt, List.getElem?_eq_getElem hlen]
    rw [hdel.answer, hset, Reference.answer, hget]
    rfl
  · have hs := hadv.sameBindings
    have hrow' := hadv.chunkRow
    rw [hset, List.length_singleton] at hrow'
    obtain ⟨count, last, diag, hh⟩ := hadv
    refine .on hc' hrows hi.lt (by omega) ?_ (hs.rowsetSize.trans hi.single)
    rw [hh]
    exact hi.prior

/-! ## One request -/

/-- The row of its chunk that a request leads to. -/
def targetRow (h : OdbcHandleStmt ρ V) : ScrollRequest → ℤ
  | .next => if h.odbcFetcher.requireFetch then 0 else h.odbcFetcher.chunkRow + 1
  | .prior =>
    if h.odbcFetcher.priorChunkRow < 0 then
      match h.odbcFetcher.chunks[h.odbcFetcher.currentChunkIdx - 1]? with
      | some c => c.size - 1
      | none => -1
    else h.odbcFetcher.priorChunkRow
  | .first => 0

/-- No cell of the row a request leads to was read last : bound columns of variable length
are otherwise taken to be read already. Taking a chunk from the engine forgets that cell. -/
def TargetUnread (h : OdbcHandleStmt ρ V) (o : ScrollRequest) : Prop :=
  h.boundCols = [] ∨ h.odbcFetcher.lastFetched.length = 0 ∨
    h.odbcFetcher.lastFetched.rowIdx ≠ h.targetRow o ∨
    (o = .next ∧ h.odbcFetcher.requireFetch = true ∧ h.odbcFetcher.resultsetEnd = false)

/-- The condition under which a request moves the cursor as the reference does. -/
def ScrollInStep (h : OdbcHandleStmt ρ V) (o : ScrollRequest) : Prop :=
  TargetUnread h o ∧ (o = .next → NextInStep h)

theorem unread_of_ne {h : OdbcHandleStmt ρ V} {j : ℕ} (hrow : h.odbcFetcher.chunkRow = j - 1)
    (hne : h.odbcFetcher.lastFetched.rowIdx ≠ j) : h.Unread 1 := by
  unfold Unread
  rw [hrow]
  rcases Int.lt_or_gt_of_ne hne with hlt | hgt
  · exact .inr (.inl (by omega))
  · exact .inr (.inr (by omega))

section Step

variable {E : Engine ρ V} {rows : List ρ} {h h' : OdbcHandleStmt ρ V} {o : ScrollRequest}

/-- The answer of a request at the position `p`. -/
def RepliesAt (E : Engine ρ V) (rows : List ρ) (h : OdbcHandleStmt ρ V)
    (o : ScrollRequest) (p : ℕ) :
    Prop :=
  ∃ h', scrollStep E h o = .ok (Reference.answer rows p, h') ∧ Positioned E rows h' p

theorem scroll_of_success {pre post : List (DataChunk ρ)} {c : DataChunk ρ}
    {bs : List (Block ρ)} {j : ℕ}
    (hmove : h.fetchNextChunk o.orientation 0 = .ok (.success, h'))
    (hi : InFrontOf E h' pre c post bs j) (hrows : rowsOf (pre ++ c :: post) bs = rows) :
    RepliesAt E rows h o (offset pre + j + 1) := by
  obtain ⟨d, hd, hans, hpos⟩ := hi.deliver hrows
  refine ⟨d.h, ?_, hpos⟩
  have hfetch : h.fetch E o.orientation 0 = .ok d := by
    simp only [fetch, hmove, bind, Except.bind]
    exact hd
  simp only [scrollStep, hfetch, Except.map, hans]

theorem scroll_of_noData {p : ℕ} (hmove : h.fetchNextChunk o.orientation 0 = .ok (.noData, h'))
    (hans : Reference.answer rows p = (.noData, [])) (hpos : Positioned E rows h' p) :
    RepliesAt E rows h o p := by
  refine ⟨h', ?_, hpos⟩
  have hfetch : h.fetch E o.orientation 0 = .ok ⟨.noData, h', [], []⟩ := by
    simp only [fetch, hmove, bind, Except.bind]
  simp only [scrollStep, hfetch, Except.map, Delivery.answer, hans]
  rfl

/-- The rowset before, within the current chunk. -/
theorem setPrior_within (hprior : (h.rowsetSize : ℤ) ≤ h.odbcFetcher.priorChunkRow + 1) :
    h.setPriorCurrentChunk =
      .ok (.success, h.setRow (h.odbcFetcher.priorChunkRow - h.rowsetSize)) := by
  unfold setPriorCurrentChunk
  dsimp only
  rw [if_neg (by omega)]
  rfl

/-- No row is before the first chunk. -/
theorem setPrior_start (hprior : h.odbcFetcher.priorChunkRow + 1 < h.rowsetSize)
    (hidx : h.odbcFetcher.currentChunkIdx = 0) :
    h.setPriorCurrentChunk = .ok (.noData, { h with
      odbcFetcher.priorChunkRow := h.odbcFetcher.priorChunkRow - h.rowsetSize
      odbcFetcher.chunkRow := -1 }) := by
  unfold setPriorCurrentChunk
  simp only [hidx]
  rw [if_pos (by omega)]

/-- The last rows of the chunk before. -/
theorem setPrior_chunk (hprior : h.odbcFetcher.priorChunkRow + 1 < h.rowsetSize) {k : ℕ}
    {c : DataChunk ρ} (hidx : h.odbcFetcher.currentChunkIdx = k + 1)
    (hc : h.odbcFetcher.chunks[k]? = some c) :
    h.setPriorCurrentChunk = .ok (.success, { h with
      odbcFetcher.currentChunkIdx := k
      odbcFetcher.currentChunk := some c
      odbcFetcher.priorChunkRow := max (-1) ((c.size : ℤ) - h.rowsetSize - 1)
      odbcFetcher.chunkRow := max (-1) ((c.size : ℤ) - h.rowsetSize - 1) }) := by
  unfold setPriorCurrentChunk
  simp only [hidx, hc]
  rw [if_pos (by omega)]

theorem TargetUnread.unread (hu : TargetUnread h o) {j : ℕ} (htarget : h.targetRow o = j)
    (hb : h'.boundCols = h.boundCols)
    (hlast : h'.odbcFetcher.lastFetched = h.odbcFetcher.lastFetched)
    (hrow : h'.odbcFetcher.chunkRow = j - 1)
    (hkept : ¬(o = .next ∧ h.odbcFetcher.requireFetch = true ∧
    h.odbcFetcher.resultsetEnd = false)) :
    h'.boundCols = [] ∨ h'.Unread 1 := by
  rcases hu with hempty | hlen | hne | htaken
  · exact .inl (hb.trans hempty)
  · exact .inr (.inl (by rw [hlast]; exact hlen))
  · exact .inr (unread_of_ne hrow (by rw [hlast, ← htarget]; exact hne))
  · exact absurd htaken hkept

theorem Positioned.prior {p : ℕ} (hp : Positioned E rows h p) (hread : TargetUnread h .prior) :
    RepliesAt E rows h .prior (p - 1) := by
  have hkept : ¬(ScrollRequest.prior = .next ∧ h.odbcFetcher.requireFetch = true ∧
      h.odbcFetcher.resultsetEnd = false) := by simp
  cases hp with
  | @before c post bs hc hrows hrow hprior hsingle =>
    refine scroll_of_noData ((fetchNextChunk_prior hc.cursorType).trans
      (setPrior_start (by omega) hc.idx)) rfl ?_
    exact .before (hc.of_same ⟨rfl, rfl, rfl, rfl⟩ rfl rfl rfl rfl rfl hc.seen) hrows rfl
      (by dsimp only; omega) hsingle
  | @on pre c post bs hc hrows j hj hrow hprior hsingle =>
    cases j with
    | succ j =>
      have hmove := (fetchNextChunk_prior hc.cursorType).trans
        (setPrior_within (by omega))
      have hrow' : h.odbcFetcher.priorChunkRow - h.rowsetSize = (j : ℤ) - 1 := by omega
      have htarget : h.targetRow .prior = j := by
        simp only [targetRow]
        rw [if_neg (by omega)]
        omega
      exact scroll_of_success hmove ⟨hc.of_same ⟨rfl, rfl, rfl, rfl⟩ rfl rfl rfl rfl rfl hc.seen,
        by omega, hrow', hrow', hread.unread htarget rfl rfl hrow' hkept, hsingle⟩ hrows
    | zero =>
      rcases List.eq_nil_or_concat pre with rfl | ⟨pre, c', hpre⟩
      · refine scroll_of_noData ((fetchNextChunk_prior hc.cursorType).trans
          (setPrior_start (by omega) hc.idx)) rfl ?_
        exact .before (hc.of_same ⟨rfl, rfl, rfl, rfl⟩ rfl rfl rfl rfl rfl hc.seen) hrows rfl
          (by dsimp only; omega) hsingle
      · rw [List.concat_eq_append] at hpre
        subst hpre
        have hsize := c'.size_pos
        have hidx : h.odbcFetcher.currentChunkIdx = pre.length + 1 := by rw [hc.idx]; simp
        have hget : h.odbcFetcher.chunks[pre.length]? = some c' := by rw [hc.chunks]; simp
        have hmove := (fetchNextChunk_prior hc.cursorType).trans
          (setPrior_chunk (by omega) hidx hget)
        have hrow' : max (-1) ((c'.size : ℤ) - h.rowsetSize - 1) = (c'.size - 1 : ℕ) - 1 := by omega
        have htarget : h.targetRow .prior = (c'.size - 1 : ℕ) := by
          simp only [targetRow, hidx, Nat.add_sub_cancel, hget]
          rw [if_pos (by omega)]
          omega
        have hp' : offset (pre ++ [c']) + 0 + 1 - 1 = offset pre + (c'.size - 1) + 1 := by
          rw [offset_concat]
          omega
        rw [hp']
        have hsplit : pre ++ [c'] ++ c :: post = pre ++ c' :: (c :: post) := by simp
        obtain ⟨res, hres, hpend, hf, hcols, hr⟩ := hc.res
        rw [hsplit] at hrows hcols hr
        exact scroll_of_success hmove ⟨⟨hc.cursorType, by rw [← hsplit]; exact hc.chunks, rfl, rfl,
          ⟨res, hres, hpend, hf, hcols, hr.of_same ⟨rfl, rfl, rfl, rfl⟩ (List.Subset.refl _)⟩,
          hc.seen⟩, by omega, hrow', hrow', hread.unread htarget rfl rfl hrow' hkept, hsingle⟩ hrows
  | @after pre c hc hrows hend hrow hprior hsingle =>
    have hsize := c.size_pos
    have hmove := (fetchNextChunk_prior hc.cursorType).trans (setPrior_within (by omega))
    have hrow' : h.odbcFetcher.priorChunkRow - h.rowsetSize = ((c.size - 1 : ℕ) : ℤ) - 1 := by omega
    have htarget : h.targetRow .prior = (c.size - 1 : ℕ) := by
      simp only [targetRow]
      rw [if_neg (by omega)]
      omega
    have hp' : rows.length + 1 - 1 = offset pre + (c.size - 1) + 1 := by
      have hlen := rowsOf_length pre [] c []
      have hzero : (rowsOf ([] : List (DataChunk ρ)) []).length = 0 := rfl
      rw [hrows] at hlen
      omega
    rw [hp']
    exact scroll_of_success hmove ⟨hc.of_same ⟨rfl, rfl, rfl, rfl⟩ rfl rfl rfl rfl rfl hc.seen,
      by omega, hrow', hrow', hread.unread htarget rfl rfl hrow' hkept, hsingle⟩ hrows
  | empty hrows hcur hchunks hcurrent hidx hend hrow hprior hsingle =>
    refine scroll_of_noData ((fetchNextChunk_prior hcur).trans (setPrior_start (by omega) hidx)) ?_
      (.empty hrows hcur hchunks hcurrent hidx hend rfl (by dsimp only; omega) hsingle)
    cases p with
    | zero => rfl
    | succ p =>
      subst hrows
      cases p <;> rfl

/-- The first row, from a position in the stored chunks. -/
theorem OnChunk.first {pre post : List (DataChunk ρ)} {c : DataChunk ρ} {bs : List (Block ρ)}
    (hc : OnChunk E h pre c post bs) (hrows : rowsOf (pre ++ c :: post) bs = rows)
    (hread : TargetUnread h .first) (hsingle : h.rowsetSize = 1) : RepliesAt E rows h .first 1 := by
  obtain ⟨c₀, rest, hsplit, hmove, hc₀⟩ := hc.move_first
  rw [hsplit] at hrows
  have hunread : h.beforeStart.2.boundCols = [] ∨ h.beforeStart.2.Unread 1 :=
    hread.unread (j := 0) rfl rfl rfl rfl (by simp)
  have hfront : InFrontOf E h.beforeStart.2 [] c₀ rest bs 0 :=
    ⟨hc₀, c₀.size_pos, rfl, rfl, hunread, hsingle⟩
  exact scroll_of_success hmove hfront hrows

theorem Positioned.first {p : ℕ} (hp : Positioned E rows h p) (hread : TargetUnread h .first) :
    RepliesAt E rows h .first 1 := by
  cases hp with
  | before hc hrows hrow hprior hsingle => exact hc.first hrows hread hsingle
  | on hc hrows hj hrow hprior hsingle => exact hc.first hrows hread hsingle
  | after hc hrows hend hrow hprior hsingle => exact hc.first hrows hread hsingle
  | empty hrows hcur hchunks hcurrent hidx hend hrow hprior hsingle =>
    have hmove : h.fetchNextChunk .first 0 = .ok (.noData, h.beforeStart.2) := by
      have hnone : h.beforeStart.2.odbcFetcher.currentChunk = none := by
        simp [beforeStart, hchunks, hcurrent]
      rw [fetchNextChunk_first hcur, setFirstCurrentChunk]
      simp only [hnone]
      rw [fetchNext_of_end (h := h.beforeStart.2) hend,
        setCurrentChunk_of_empty (h := h.beforeStart.2) hchunks]
    refine scroll_of_noData hmove (by rw [hrows]; rfl) (.empty hrows hcur hchunks ?_ rfl hend rfl
      (Int.le_refl _) hsingle)
    simp [beforeStart, hchunks, hcurrent]

/-- The next row of the current chunk. -/
theorem OnChunk.next_within {pre post : List (DataChunk ρ)} {c : DataChunk ρ} {bs : List (Block ρ)}
    {j : ℕ} (hc : OnChunk E h pre c post bs) (hrows : rowsOf (pre ++ c :: post) bs = rows)
    (hj : j < c.size) (hrow : h.odbcFetcher.chunkRow = j - 1) (hsingle : h.rowsetSize = 1)
    (hreq : ¬h.odbcFetcher.requireFetch = true) (hread : TargetUnread h .next) :
    RepliesAt E rows h .next (offset pre + j + 1) := by
  obtain ⟨hmove, hnoted⟩ := hc.move_within hreq
  have htarget : h.targetRow .next = j := by
    simp only [targetRow]
    rw [if_neg hreq]
    omega
  exact scroll_of_success hmove ⟨hnoted, hj, hrow, hrow,
    hread.unread htarget rfl rfl hrow fun hk => hreq hk.2.1, hsingle⟩ hrows

/-- The first row of the next chunk. -/
theorem OnChunk.next_chunk {pre post : List (DataChunk ρ)} {c : DataChunk ρ} {bs : List (Block ρ)}
    (hc : OnChunk E h pre c post bs) (hrows : rowsOf (pre ++ c :: post) bs = rows)
    (hsingle : h.rowsetSize = 1) (hreq : h.odbcFetcher.requireFetch = true)
    (hread : TargetUnread h .next)
    (hmore : (h.odbcFetcher.resultsetEnd = true ∧ post ≠ []) ∨
      (h.odbcFetcher.resultsetEnd = false ∧ bs ≠ [])) :
    RepliesAt E rows h .next (offset (pre ++ [c]) + 0 + 1) := by
  obtain ⟨h', c', post', bs', hmove, hc', hblocks, hrow, hprior, hlast, -⟩ :=
    hc.move_chunk hreq hmore
  have hs := (moved_fetchNextChunk hmove).sameBindings
  have hrows' : rowsOf (pre ++ [c] ++ c' :: post') bs' = rows := by
    rw [← hrows]
    unfold rowsOf
    rw [blocksOf_append, hblocks, ← blocksOf_append, ← List.append_cons]
  have hunread : h'.boundCols = [] ∨ h'.Unread 1 := by
    rcases hlast with ⟨hend, hlast⟩ | hlen
    · have htarget : h.targetRow .next = (0 : ℕ) := by
        simp only [targetRow, hreq, if_true]
        rfl
      exact hread.unread htarget hs.2.1 hlast hrow (by simp [hend])
    · exact .inr (.inl hlen)
  exact scroll_of_success hmove ⟨hc', c'.size_pos, hrow, hprior, hunread,
    hs.rowsetSize.trans hsingle⟩ hrows'

/-- The end of the rows. -/
theorem OnChunk.next_end {pre : List (DataChunk ρ)} {c : DataChunk ρ}
    (hc : OnChunk E h pre c [] []) (hrows : rowsOf (pre ++ [c]) [] = rows)
    (hrow : h.odbcFetcher.chunkRow = c.size - 1) (hsingle : h.rowsetSize = 1) :
    RepliesAt E rows h .next (rows.length + 1) := by
  have hreq : h.odbcFetcher.requireFetch = true := by
    rw [requireFetch_iff (by rw [hc.chunks, List.getLast?_concat])]
    omega
  have hans : Reference.answer rows (rows.length + 1) = (.noData, []) := by simp [Reference.answer]
  obtain ⟨h', hmove, hc', hend, hrow', hprior', -⟩ := hc.move_end hreq
  have hs := (moved_fetchNextChunk hmove).sameBindings
  exact scroll_of_noData hmove hans (.after hc' hrows hend (hrow'.trans hrow)
    (hprior'.trans hrow'.symm) (hs.rowsetSize.trans hsingle))

theorem Positioned.next {p : ℕ} (hp : Positioned E rows h p) (hread : TargetUnread h .next)
    (hok : NextInStep h) : RepliesAt E rows h .next (min (p + 1) (rows.length + 1)) := by
  cases hp with
  | @before c post bs hc hrows hrow hprior hsingle =>
    -- no chunk is so short that its end is in front of the first row
    have hreq : ¬h.odbcFetcher.requireFetch = true := by
      obtain ⟨last, hlast⟩ : ∃ last, h.odbcFetcher.chunks.getLast? = some last := by
        rw [hc.chunks]
        exact ⟨_, List.getLast?_eq_some_getLast (List.cons_ne_nil _ _)⟩
      have := last.size_pos
      rw [requireFetch_iff hlast, hrow]
      omega
    have hlen := rowsOf_length [] post c bs
    have hsize := c.size_pos
    rw [List.nil_append, hrows] at hlen
    rw [Nat.min_eq_left (by omega)]
    exact hc.next_within hrows c.size_pos hrow hsingle hreq hread
  | @on pre c post bs hc hrows j hj hrow hprior hsingle =>
    have hlen := rowsOf_length pre post c bs
    rw [hrows] at hlen
    obtain ⟨hsame, hmore⟩ := hc.inStep hok
    rw [hrow] at hsame
    by_cases hin : j + 1 < c.size
    · rw [Nat.min_eq_left (by omega)]
      exact hc.next_within (j := j + 1) hrows hin (by omega) hsingle (by rw [hsame]; omega) hread
    · have hreq : h.odbcFetcher.requireFetch = true := hsame.2 (by omega)
      by_cases hend : post = [] ∧ bs = []
      · -- the last row
        obtain ⟨rfl, rfl⟩ := hend
        have hzero : (rowsOf ([] : List (DataChunk ρ)) []).length = 0 := rfl
        rw [Nat.min_eq_right (by omega)]
        exact hc.next_end hrows (by omega) hsingle
      · have hrest := rowsOf_length_pos hend
        have hp' : min (offset pre + j + 1 + 1) (rows.length + 1) =
          offset (pre ++ [c]) + 0 + 1 := by
          rw [offset_concat]
          omega
        rw [hp']
        exact hc.next_chunk hrows hsingle hreq hread (hmore hreq hend)
  | @after pre c hc hrows hend hrow hprior hsingle =>
    rw [Nat.min_eq_right (by omega)]
    exact hc.next_end hrows hrow hsingle
  | empty hrows hcur hchunks hcurrent hidx hend hrow hprior hsingle =>
    have hmove := fetchNextChunk_next h 0
    rw [if_pos (by simp [OdbcFetch.requireFetch, hchunks]), if_neg (by simp [hchunks]),
      fetchNext_of_end (h := h.noted) hend,
      setCurrentChunk_of_empty (h := h.noted) hchunks] at hmove
    refine scroll_of_noData hmove ?_ (.empty hrows hcur hchunks hcurrent hidx hend hrow
      (Int.le_of_eq hrow) hsingle)
    subst hrows
    simp only [List.length_nil]
    cases p <;> rfl

end Step

/-! ## A scroll -/

/-- One request in step with the reference. -/
theorem Positioned.step {E : Engine ρ V} {rows : List ρ} {h : OdbcHandleStmt ρ V} {p : ℕ}
    (hp : Positioned E rows h p) {o : ScrollRequest} (hok : ScrollInStep h o) :
    RepliesAt E rows h o (Reference.move rows.length p o) := by
  cases o with
  | next => exact hp.next hok.1 (hok.2 rfl)
  | prior => exact hp.prior hok.1
  | first => exact hp.first hok.1

/-- A statement that was just executed is in front of its rows. -/
theorem ScanReady.positioned {E : Engine ρ V} {h : OdbcHandleStmt ρ V} {result : QueryResult ρ}
    (hx : ScanReady E h result) (hcur : h.odbcFetcher.cursorType ≠ .forwardOnly)
    (hsingle : h.rowsetSize = 1) : Positioned E (result.pending.flatMap Block.rows) h 0 := by
  have hread : Readable E h result.columnCount result.pending := by
    by_cases hb : h.boundCols = []
    · exact .inr ⟨hb, hsingle⟩
    · exact .inl ⟨hx.bindings hb, hx.converts⟩
  have hi := hx.inFront
  cases hp : result.pending with
  | nil =>
    rw [hp] at hi
    obtain ⟨-, hchunks, hend, hcurrent, hidx, hrow, hprior⟩ := hi
    exact .empty rfl hcur hchunks hcurrent hidx hend hrow (Int.le_of_eq hprior) hsingle
  | cons b bs =>
    rw [hp] at hi hread
    obtain ⟨c, hc, rfl, -, hrow, hprior⟩ := hi.onChunk hcur hread
    exact .before hc rfl hrow (Int.le_of_eq hprior) hsingle

/-- Over any list of requests that are in step, a scroll answers as the reference cursor. -/
theorem scroll_eq_reference (E : Engine ρ V) {h : OdbcHandleStmt ρ V} {result : QueryResult ρ}
    (hx : ScanReady E h result) (hcur : h.odbcFetcher.cursorType ≠ .forwardOnly)
    (hsingle : h.rowsetSize = 1) (requests : List ScrollRequest)
    (hok : Run.Along (fun h o h' => ∃ ans, scrollStep E h o = .ok (ans, h')) ScrollInStep
    h requests) :
    ∃ answers h' p, Run.outputs (scrollStep E) h requests = .ok (answers, h') ∧
      Run.outputs (Reference.step (result.pending.flatMap Block.rows)) 0 requests =
        .ok (answers, p) := by
  obtain ⟨answers, h', p, hcode, href, -⟩ := Run.outputs_eq_of_simulation
    (Positioned E (result.pending.flatMap Block.rows)) ScrollInStep
    (by
      intro h p o hpos hok
      obtain ⟨h', hstep, hpos'⟩ := hpos.step hok
      exact ⟨_, h', _, hstep, rfl, hpos'⟩)
    (hx.positioned hcur hsingle) hok
  exact ⟨answers, h', p, hcode, href⟩

/-- The prepared bytes, executed, with one row a rowset and a static cursor, on the row `row`
of the chunk `b`, the only one taken. -/
def scrollBytes (b : Block ℕ) (bs : List (Block ℕ)) (row prior count : ℤ) (seen : Bool) :
    OdbcHandleStmt ℕ ℕ :=
  { preparedBytes with
    rowDesc := {}
    opened := true
    res := some { queryResult 1 bs with fetched := 1 }
    odbcFetcher := ⟨.static, count, ⟨-1, -1, 0⟩, [⟨0, 1, b⟩], 0, some ⟨0, 1, b⟩, row, prior, seen⟩ }

theorem scrollBytes_scanReady (b : Block ℕ) (bs : List (Block ℕ)) :
    ScanReady byteEngine (scrollBytes b bs (-1) (-1) 0 false) (queryResult 1 (b :: bs)) := by
  refine ⟨⟨1, (select 1 (b :: bs)).exec, preparedBytes, _, rfl, rfl, rfl,
    preparedBytes.boundCols, {}, 8,
    .static, [], rfl⟩, rfl, Nat.le_refl 1, fun _ => ?_, ?_⟩
  · exact ⟨rfl, List.cons_ne_nil _ _, Nat.le_refl 1, Nat.le_refl 1, (by decide : 1 < 2 ^ 64)⟩
  · intro b _ k row _ i c hc _
    obtain rfl : c = ⟨.utinyint, 100, 1, 200⟩ := by
      cases i with
      | zero => exact (Option.some.inj hc).symm
      | succ i => simp [scrollBytes, preparedBytes] at hc
    exact byteEngine_converts rfl i row _ (by decide : (100 : ℤ) ≠ 0)

/-- With a single chunk all requests are in step. -/
theorem scrollBytes_inStep (b : Block ℕ) (row prior count : ℤ) (seen : Bool) (o : ScrollRequest) :
    ScrollInStep (scrollBytes b [] row prior count seen) o := by
  refine ⟨.inr (.inl rfl), fun _ c last res hc hlast _ => ⟨?_, fun _ hlt => ?_⟩⟩
  · obtain rfl := Option.some.inj hc
    obtain rfl := Option.some.inj hlast
    rfl
  · exact absurd hlt (Nat.lt_irrefl 1)

/-- To the last row, past it and back. -/
theorem scroll_eq_reference_bytes :
    ∃ answers h' p,
      Run.outputs (scrollStep byteEngine) (scrollBytes ⟨[1, 2], by simp⟩ [] (-1) (-1) 0 false)
        [.next, .next, .next, .prior] = .ok (answers, h') ∧
      Run.outputs (Reference.step [1, 2]) 0 [.next, .next, .next, .prior] = .ok (answers, p) := by
  refine scroll_eq_reference byteEngine (scrollBytes_scanReady ⟨[1, 2], by simp⟩ [])
    (by decide) rfl _ ?_
  refine Run.along_cons (t := scrollBytes ⟨[1, 2], by simp⟩ [] 0 (-1) 1 false)
    (scrollBytes_inStep _ _ _ _ _ _) rfl ?_
  refine Run.along_cons (t := scrollBytes ⟨[1, 2], by simp⟩ [] 1 0 2 false)
    (scrollBytes_inStep _ _ _ _ _ _) rfl ?_
  refine Run.along_cons (t := scrollBytes ⟨[1, 2], by simp⟩ [] 1 1 2 true)
    (scrollBytes_inStep _ _ _ _ _ _) rfl ?_
  exact Run.along_cons (t := scrollBytes ⟨[1, 2], by simp⟩ [] 1 0 3 true)
    (scrollBytes_inStep _ _ _ _ _ _) rfl trivial

/-- Chunks of one row and two rows : back on the first row, the next one is not found. -/
theorem next_row_not_found :
    ScanReady byteEngine (scrollBytes ⟨[1], by simp⟩ [⟨[2, 3], by simp⟩] (-1) (-1) 0 false)
        (queryResult 1 [⟨[1], by simp⟩, ⟨[2, 3], by simp⟩]) ∧
      ∃ answers h',
        Run.outputs (scrollStep byteEngine)
          (scrollBytes ⟨[1], by simp⟩ [⟨[2, 3], by simp⟩] (-1) (-1) 0 false)
          [.next, .next, .prior, .next] = .ok (answers, h') ∧
        ∀ p, Run.outputs (Reference.step [1, 2, 3]) 0 [.next, .next, .prior, .next] ≠
          .ok (answers, p) := by
  refine ⟨scrollBytes_scanReady _ _, _, _, rfl, fun p hp => ?_⟩
  have hsame := (Prod.mk.inj (Except.ok.inj hp)).1
  exact absurd hsame (by decide)

end OdbcHandleStmt

end HaybarnOdbc
