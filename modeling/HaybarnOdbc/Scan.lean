import HaybarnOdbc.Lib.Run
import HaybarnOdbc.Lib.Segments
import HaybarnOdbc.Batch

/-!
# Scanning a result

A scan is `SQL_FETCH_NEXT` again and again. On a scan the current chunk is the last one
taken from the engine, for every type of cursor (`AtLast`), so that a fetch either goes on
in it, takes the next chunk, or finds the end (`next_within`, `next_chunk`, `next_end`).

The rowset of a fetch is clipped to the current chunk. The rowsets of a scan are thus the
segments of the chunks, one chunk after the other (`rowsets`).
-/

namespace HaybarnOdbc

variable {ρ V : Type}

open Segments

namespace OdbcHandleStmt

/-! ## The position of a scan -/

/-- The cursor is on the chunk `c`, the last one taken from the engine, which has the
chunks `bs` left; its result has `cols` columns. -/
structure AtLast (h : OdbcHandleStmt ρ V) (cols : ℕ) (c : DataChunk ρ) (bs : List (Block ρ)) :
    Prop where
  opened : h.opened = true
  res : ∃ res, h.res = some res ∧ res.pending = bs ∧ res.failure = none ∧ res.columnCount = cols
  stored : h.odbcFetcher.chunks.getLast? = some c
  current : h.odbcFetcher.currentChunk = some c
  idx : h.odbcFetcher.currentChunkIdx + 1 = h.odbcFetcher.chunks.length
  low : -1 ≤ h.odbcFetcher.chunkRow
  seen : h.odbcFetcher.resultsetEnd = true → bs = []

theorem AtLast.deref {h : OdbcHandleStmt ρ V} {cols : ℕ} {c : DataChunk ρ} {bs : List (Block ρ)}
    (ha : AtLast h cols c bs) : h.odbcFetcher.deref = .ok c :=
  OdbcFetch.deref_eq_ok ha.current (List.mem_of_getLast? ha.stored)

theorem AtLast.requireFetch_iff {h : OdbcHandleStmt ρ V} {cols : ℕ} {c : DataChunk ρ}
    {bs : List (Block ρ)} (ha : AtLast h cols c bs) :
    h.odbcFetcher.requireFetch = true ↔ (c.size : ℤ) ≤ h.odbcFetcher.chunkRow + 1 := by
  simp only [OdbcFetch.requireFetch, ha.stored, decide_eq_true_eq]
  omega

theorem AtLast.noted {h : OdbcHandleStmt ρ V} {cols : ℕ} {c : DataChunk ρ} {bs : List (Block ρ)}
    (ha : AtLast h cols c bs) : AtLast h.noted cols c bs :=
  ⟨ha.opened, ha.res, ha.stored, ha.current, ha.idx, ha.low, ha.seen⟩

theorem AtLast.advanced {h h' : OdbcHandleStmt ρ V} {cols k : ℕ} {c : DataChunk ρ}
    {bs : List (Block ρ)} (ha : AtLast h cols c bs) (hadv : Advanced h k h') :
    AtLast h' cols c bs := by
  have hrow := hadv.chunkRow
  have hlow := ha.low
  obtain ⟨count, last, diag, rfl⟩ := hadv
  exact ⟨ha.opened, ha.res, ha.stored, ha.current, ha.idx, by rw [hrow]; omega, ha.seen⟩

section Next

variable {h : OdbcHandleStmt ρ V} {cols : ℕ} {c : DataChunk ρ} {bs : List (Block ρ)} (off : ℤ)

/-- Rows of the current chunk are left. -/
theorem AtLast.next_within (ha : AtLast h cols c bs) (hrow : h.odbcFetcher.chunkRow + 1 < c.size) :
    h.fetchNextChunk .next off = .ok (.success, h.noted) := by
  rw [fetchNextChunk_next, if_neg]
  rw [ha.requireFetch_iff]
  omega

/-- The current chunk is read, and the engine has another one. -/
theorem AtLast.next_chunk {b : Block ρ} (ha : AtLast h cols c (b :: bs))
    (hrow : (c.size : ℤ) ≤ h.odbcFetcher.chunkRow + 1) :
    ∃ h' c', h.fetchNextChunk .next off = .ok (.success, h') ∧ AtLast h' cols c' bs ∧
      c'.block = b ∧ c'.columnCount = cols ∧ h'.odbcFetcher.chunkRow = -1 ∧
      h'.odbcFetcher.lastFetched.length = 0 := by
  obtain ⟨res, hres, hp, hf, hcols⟩ := ha.res
  have hend : h.odbcFetcher.resultsetEnd = false := by
    by_contra hne
    exact absurd (ha.seen (by simpa using hne)) (by simp)
  have hidx : h.odbcFetcher.chunks.length ≤ h.odbcFetcher.currentChunkIdx + 1 :=
    Nat.le_of_eq ha.idx.symm
  refine ⟨h.noted.onTaken res b bs, ⟨res.fetched, res.columnCount, b⟩, ?_, ?_, rfl, hcols, rfl, rfl⟩
  · rw [fetchNextChunk_next, if_pos (ha.requireFetch_iff.2 hrow), if_neg (by simp [hend])]
    exact fetchNext_onTaken (h := h.noted) hend hres hp hidx
  · refine ⟨ha.opened, ⟨_, rfl, rfl, hf, hcols⟩, ?_, rfl, ?_, ?_, ?_⟩
    · simp only [onTaken]
      split <;> simp
    · simp only [onTaken]
      split <;> simp
    · simp [onTaken]
    · intro hseen
      exact absurd (hend.symm.trans hseen) (by simp)

/-- The result is read. -/
theorem AtLast.next_end (ha : AtLast h cols c [])
    (hrow : (c.size : ℤ) ≤ h.odbcFetcher.chunkRow + 1) :
    ∃ h', h.fetchNextChunk .next off = .ok (.noData, h') ∧ AtLast h' cols c [] ∧
      h'.odbcFetcher.chunkRow = h.odbcFetcher.chunkRow ∧ (h.ReadSoFar → h'.ReadSoFar) := by
  obtain ⟨res, hres, hp, hf, hcols⟩ := ha.res
  rw [fetchNextChunk_next, if_pos (ha.requireFetch_iff.2 hrow)]
  cases hend : h.odbcFetcher.resultsetEnd with
  | true =>
    refine ⟨h.noted, by rw [if_pos ⟨rfl, ha.idx⟩], ha.noted, rfl, id⟩
  | false =>
    rw [if_neg (by simp), fetchNext_of_done (h := h.noted) hend hres hp hf]
    exact ⟨_, rfl, ⟨ha.opened, ha.res, ha.stored, ha.current, ha.idx, ha.low, fun _ => rfl⟩, rfl,
      fun _ => .inl rfl⟩

end Next

/-! ## One fetch of a scan -/

/-- The bound columns are the columns of the statement, its result has `cols` columns, and
the size of a rowset is a positive number of the type `SQLULEN`. -/
structure Bindings (h : OdbcHandleStmt ρ V) (cols : ℕ) : Prop where
  count : h.columnCount = .ok h.boundCols.length
  bound : h.boundCols ≠ []
  cols : h.boundCols.length ≤ cols
  pos : 1 ≤ h.rowsetSize
  lt : h.rowsetSize < 2 ^ 64

/-- All bound cells of the rows of a chunk convert. -/
def BlockConverts (E : Engine ρ V) (h : OdbcHandleStmt ρ V) (b : Block ρ) : Prop :=
  ∀ k row, b.rows[k]? = some row → RowConverts E h.boundCols h.place k row

/-- What stays the same over a scan. -/
def SameBindings (h h' : OdbcHandleStmt ρ V) : Prop :=
  h'.stmt = h.stmt ∧ h'.boundCols = h.boundCols ∧ h'.rowDesc = h.rowDesc ∧
    h'.rowsFetchedPtr = h.rowsFetchedPtr

theorem Moved.sameBindings {h h' : OdbcHandleStmt ρ V} (hm : Moved h h') : SameBindings h h' :=
  ⟨hm.stmt, hm.boundCols, hm.rowDesc, hm.rowsFetchedPtr⟩

theorem Advanced.sameBindings {h h' : OdbcHandleStmt ρ V} {k : ℕ} (ha : Advanced h k h') :
    SameBindings h h' := by
  obtain ⟨count, last, diag, rfl⟩ := ha
  exact ⟨rfl, rfl, rfl, rfl⟩

theorem SameBindings.trans {h₁ h₂ h₃ : OdbcHandleStmt ρ V} (h₁₂ : SameBindings h₁ h₂)
    (h₂₃ : SameBindings h₂ h₃) : SameBindings h₁ h₃ :=
  ⟨h₂₃.1.trans h₁₂.1, h₂₃.2.1.trans h₁₂.2.1, h₂₃.2.2.1.trans h₁₂.2.2.1, h₂₃.2.2.2.trans h₁₂.2.2.2⟩

theorem SameBindings.rowsetSize {h h' : OdbcHandleStmt ρ V} (hs : SameBindings h h') :
    h'.rowsetSize = h.rowsetSize := by
  simp only [OdbcHandleStmt.rowsetSize, hs.2.2.1]

theorem SameBindings.place {h h' : OdbcHandleStmt ρ V} (hs : SameBindings h h') :
    h'.place = h.place := by
  unfold OdbcHandleStmt.place columnPlace rowPlace
  simp only [hs.2.2.1, hs.rowsetSize]

theorem Bindings.of_same {h h' : OdbcHandleStmt ρ V} {cols : ℕ} (hb : Bindings h cols)
    (hs : SameBindings h h') : Bindings h' cols where
  count := by
    have hcount : h'.columnCount = h.columnCount := by simp only [columnCount, hs.1]
    rw [hcount, hs.2.1]
    exact hb.count
  bound := by rw [hs.2.1]; exact hb.bound
  cols := by rw [hs.2.1]; exact hb.cols
  pos := by rw [hs.rowsetSize]; exact hb.pos
  lt := by rw [hs.rowsetSize]; exact hb.lt

theorem BlockConverts.of_same {E : Engine ρ V} {h h' : OdbcHandleStmt ρ V} {b : Block ρ}
    (hb : BlockConverts E h b) (hs : SameBindings h h') : BlockConverts E h' b := by
  unfold BlockConverts
  rw [hs.2.1, hs.place]
  exact hb

/-- A fetch reads every row of the chunks `bs` : the bound cells all convert, or no column is
bound and the cursor moves by one row. -/
def Readable (E : Engine ρ V) (h : OdbcHandleStmt ρ V) (cols : ℕ) (bs : List (Block ρ)) : Prop :=
  (Bindings h cols ∧ ∀ b ∈ bs, BlockConverts E h b) ∨ (h.boundCols = [] ∧ h.rowsetSize = 1)

theorem Readable.pos {E : Engine ρ V} {h : OdbcHandleStmt ρ V} {cols : ℕ} {bs : List (Block ρ)}
    (hr : Readable E h cols bs) : 1 ≤ h.rowsetSize := by
  rcases hr with ⟨hb, -⟩ | ⟨-, hn⟩
  · exact hb.pos
  · omega

theorem Readable.of_same {E : Engine ρ V} {h h' : OdbcHandleStmt ρ V} {cols : ℕ}
    {bs bs' : List (Block ρ)}
    (hr : Readable E h cols bs) (hs : SameBindings h h') (hsub : bs' ⊆ bs) :
    Readable E h' cols bs' := by
  rcases hr with ⟨hb, hconv⟩ | ⟨hb, hn⟩
  · exact .inl ⟨hb.of_same hs, fun b hb' => (hconv b (hsub hb')).of_same hs⟩
  · exact .inr ⟨by rw [hs.2.1, hb], by rw [hs.rowsetSize, hn]⟩

/-- The rowsets of chunks that are fetched from their first row. -/
def rowsets (n : ℕ) (bs : List (Block ρ)) : List (List ρ) :=
  bs.flatMap fun b => segments n b.rows

theorem flatten_rowsets {n : ℕ} (hn : 1 ≤ n) (bs : List (Block ρ)) :
    (rowsets n bs).flatten = bs.flatMap Block.rows := by
  induction bs with
  | nil => rfl
  | cons b bs ih =>
    simp only [rowsets, List.flatMap_cons, List.flatten_append, flatten_segments hn] at ih ⊢
    rw [ih]

theorem length_of_mem_rowsets {n : ℕ} (hn : 1 ≤ n) {bs : List (Block ρ)} {r : List ρ}
    (hr : r ∈ rowsets n bs) : 1 ≤ r.length ∧ r.length ≤ n := by
  obtain ⟨b, -, hr⟩ := List.mem_flatMap.1 hr
  exact length_of_mem_segments hn hr

/-- The position of a scan, with the rowsets that are left. -/
inductive Scanning (E : Engine ρ V) (h : OdbcHandleStmt ρ V) : List (List ρ) → Prop
  | onChunk {cols : ℕ} {c : DataChunk ρ} {bs : List (Block ρ)} (ha : AtLast h cols c bs)
      (hhigh : h.odbcFetcher.chunkRow < c.size) (hread : h.ReadSoFar)
      (hcols : c.columnCount = cols) (hr : Readable E h cols (c.block :: bs)) :
      Scanning E h (segments h.rowsetSize (c.rows.drop h.firstRow) ++ rowsets h.rowsetSize bs)
  | empty (hopen : h.opened = true) (hchunks : h.odbcFetcher.chunks = [])
      (hend : h.odbcFetcher.resultsetEnd = true) (hcurrent : h.odbcFetcher.currentChunk = none) :
      Scanning E h []

/-- The number of rows that a fetch stored, if the application asked for it. -/
def StoresCount (d : Delivery ρ V) (n : ℕ) : Prop :=
  rowsFetchedOf d.writes = if d.h.rowsFetchedPtr ≠ 0 then [n] else []

/-- A fetch delivers the rowset `r` with the number of its rows, or finds no data. -/
def Delivers (r : Option (List ρ)) (d : Delivery ρ V) : Prop :=
  match r with
  | some r => d.ret.succeeded = true ∧ d.rows = r ∧ StoresCount d r.length
  | none => d.ret = .noData ∧ d.rows = [] ∧ d.writes = []

theorem firstRow_of_low {h : OdbcHandleStmt ρ V} (hlow : -1 ≤ h.odbcFetcher.chunkRow) :
    (h.firstRow : ℤ) = h.odbcFetcher.chunkRow + 1 := by
  simp only [firstRow]
  omega

/-- A delivery on a chunk with rows left : the next rowset of the chunk. -/
theorem deliver_readable {E : Engine ρ V} {h : OdbcHandleStmt ρ V} {cols : ℕ} {c : DataChunk ρ}
    {bs : List (Block ρ)} (hderef : h.odbcFetcher.deref = .ok c)
    (hlow : -1 ≤ h.odbcFetcher.chunkRow)
    (hrow : h.odbcFetcher.chunkRow + 1 < c.size)
    (hread : h.boundCols = [] ∨ h.Unread (h.rowset c).length) (hcols : c.columnCount = cols)
    (hr : Readable E h cols (c.block :: bs)) :
    ∃ d, h.deliver E = .ok d ∧ Delivers (some (h.rowset c)) d ∧
      Advanced h (h.rowset c).length d.h ∧ ReadRows h d.h := by
  rcases hr with ⟨hb, hconv⟩ | ⟨hb, hn⟩
  · have hd : Deliverable E h c h.place :=
      ⟨hderef, hb.count, hcols ▸ hb.cols, hconv c.block (by simp)⟩
    obtain ⟨d₀, d, hd₀, hdeliver, hwrites, hret, hrows, hadv, hread'⟩ :=
      deliver_ok hb.bound hd hlow (by omega) (hread.resolve_left hb.bound) hb.lt
    refine ⟨d, hdeliver, ⟨hret, hrows, ?_⟩, hadv, hread'⟩
    have hptr : d.h.rowsFetchedPtr = d₀.h.rowsFetchedPtr := by
      rw [hadv.sameBindings.2.2.2]
      obtain ⟨row, count, last, diag, hh⟩ := sameChunk_deliverRows hd₀
      rw [hh]
    unfold StoresCount
    rw [hwrites, hptr]
    unfold setRowsFetched
    split
    · rw [rowsFetchedOf_append, rowsFetchedOf_deliverRows hd₀]
      rfl
    · exact rowsFetchedOf_deliverRows hd₀
  · obtain ⟨d, hdeliver, hret, hrows, hwrites, hadv, hlast⟩ := deliver_unbound (E := E) hb hderef
    have hlt : h.firstRow < c.rows.length := by
      have := firstRow_of_low hlow
      change h.firstRow < c.size
      omega
    have hset : h.rowset c = [c.rows[h.firstRow]] := by
      simp only [rowset, hn]
      rw [List.drop_eq_getElem_cons hlt]
      rfl
    have hnat : (h.odbcFetcher.chunkRow + h.rowsetSize).toNat = h.firstRow := by
      rw [hn]
      rfl
    rw [hset]
    refine ⟨d, hdeliver, ⟨by rw [hret]; rfl, ?_, ?_⟩, by simpa [hn] using hadv, ?_⟩
    · rw [hrows, hnat, List.getElem?_eq_getElem hlt]
      rfl
    · unfold StoresCount
      rw [hwrites, hadv.sameBindings.2.2.2]
      split <;> rfl
    · exact .inl hlast

/-- The rowsets of the rest of a chunk : the first one, and the ones behind it. -/
theorem segments_rowset {h h' : OdbcHandleStmt ρ V} {c : DataChunk ρ}
    (hlow : -1 ≤ h.odbcFetcher.chunkRow) (hrow : h.odbcFetcher.chunkRow + 1 < c.size)
    (hpos : 1 ≤ h.rowsetSize)
    (hrow' : h'.odbcFetcher.chunkRow = h.odbcFetcher.chunkRow + (h.rowset c).length) :
    segments h.rowsetSize (c.rows.drop h.firstRow) =
      h.rowset c :: segments h.rowsetSize (c.rows.drop h'.firstRow) := by
  have hfirst := firstRow_of_low hlow
  have hfirst' : h'.firstRow = h.firstRow + (h.rowset c).length := by
    simp only [firstRow] at hfirst ⊢
    omega
  have hlt : h.firstRow < c.rows.length := by
    change h.firstRow < c.size
    omega
  have hne : c.rows.drop h.firstRow ≠ [] := by
    rw [ne_eq, List.drop_eq_nil_iff]
    omega
  rw [segments_of_ne hpos hne, hfirst', ← List.drop_drop]
  simp only [rowset, List.length_take]
  rcases Nat.le_total h.rowsetSize (c.rows.drop h.firstRow).length with hle | hle
  · rw [Nat.min_eq_left hle]
  · rw [Nat.min_eq_right hle, List.drop_length, List.drop_eq_nil_of_le hle]

/-- A delivery stays within its chunk. -/
theorem Advanced.chunkRow_lt {h h' : OdbcHandleStmt ρ V} {c : DataChunk ρ}
    (hadv : Advanced h (h.rowset c).length h') (hlow : -1 ≤ h.odbcFetcher.chunkRow)
    (hrow : h.odbcFetcher.chunkRow + 1 < c.size) : h'.odbcFetcher.chunkRow < c.size := by
  have hcr := hadv.chunkRow
  have hlen := length_rowset h c
  have hfirst := firstRow_of_low hlow
  simp only [lastRow] at hlen
  omega

/-- After it the rest of the chunk is left. -/
theorem deliver_scanning {E : Engine ρ V} {h : OdbcHandleStmt ρ V} {cols : ℕ} {c : DataChunk ρ}
    {bs : List (Block ρ)} (ha : AtLast h cols c bs) (hrow : h.odbcFetcher.chunkRow + 1 < c.size)
    (hread : h.ReadSoFar) (hcols : c.columnCount = cols) (hr : Readable E h cols (c.block :: bs)) :
    ∃ d rs, h.deliver E = .ok d ∧ Delivers (some (h.rowset c)) d ∧ Scanning E d.h rs ∧
      segments h.rowsetSize (c.rows.drop h.firstRow) ++ rowsets h.rowsetSize bs =
      h.rowset c :: rs := by
  obtain ⟨d, hdeliver, hdel, hadv, hread'⟩ :=
    deliver_readable ha.deref ha.low hrow (.inr (hread.unread _)) hcols hr
  have hsame := hadv.sameBindings
  have hcr := hadv.chunkRow
  refine ⟨d, _, hdeliver, hdel,
    .onChunk (ha.advanced hadv) (hadv.chunkRow_lt ha.low hrow) (hread.of_readRows hread' (by omega))
    hcols (hr.of_same hsame (List.Subset.refl _)), ?_⟩
  rw [segments_rowset ha.low hrow hr.pos hcr, hsame.rowsetSize]
  rfl

/-- `FetchStmtResult` on an open handle. -/
theorem fetchStmtResult_of_open {E : Engine ρ V} {h : OdbcHandleStmt ρ V} {o : FetchOrientation}
    {off : ℤ} (hopen : h.opened = true) {p : SqlReturn × OdbcHandleStmt ρ V}
    (hp : h.fetchNextChunk o off = .ok p) : h.fetchStmtResult E o off =
      match p.1 with
      | .success => p.2.deliver E
      | .fetchBeforeStart => .ok ⟨.success, p.2, [], []⟩
      | ret => .ok ⟨ret, p.2, [], []⟩ := by
  simp only [fetchStmtResult, fetch, hopen, hp, bind, Except.bind]
  rfl

/-- One fetch of a scan. -/
theorem scanning_step {E : Engine ρ V} {h : OdbcHandleStmt ρ V} {rs : List (List ρ)}
    (hs : Scanning E h rs) :
    ∃ d, h.fetchStmtResult E .next 0 = .ok d ∧ Delivers rs.head? d ∧ Scanning E d.h rs.tail := by
  cases hs with
  | empty hopen hchunks hend hcurrent =>
    refine ⟨⟨.noData, h.noted, [], []⟩, ?_, ⟨rfl, rfl, rfl⟩, .empty hopen hchunks hend hcurrent⟩
    have hnext : h.fetchNextChunk .next 0 = .ok (.noData, h.noted) := by
      rw [fetchNextChunk_next, if_pos (by simp [OdbcFetch.requireFetch, hchunks]),
        if_neg (by simp [hchunks]), fetchNext_of_end (h := h.noted) hend,
        setCurrentChunk_of_empty (h := h.noted) hchunks]
    rw [fetchStmtResult_of_open hopen hnext]
  | @onChunk cols c bs ha hhigh hread hcols hr =>
    have hfirst := firstRow_of_low ha.low
    have hlen : c.rows.length = c.size := rfl
    by_cases hrow : h.odbcFetcher.chunkRow + 1 < c.size
    · -- the rest of the current chunk is not empty
      have hr' : Readable E h.noted cols (c.block :: bs) :=
        hr.of_same ⟨rfl, rfl, rfl, rfl⟩ (List.Subset.refl _)
      obtain ⟨d, rs, hd, hdel, hscan, hsplit⟩ := deliver_scanning ha.noted hrow hread hcols hr'
      have hsplit' : segments h.rowsetSize (c.rows.drop h.firstRow) ++ rowsets h.rowsetSize bs =
          h.noted.rowset c :: rs := hsplit
      rw [hsplit']
      exact ⟨d, by rw [fetchStmtResult_of_open ha.opened (ha.next_within 0 hrow)]; exact hd,
        hdel, hscan⟩
    · have hdone : c.rows.drop h.firstRow = [] := by
        rw [List.drop_eq_nil_iff]
        omega
      rw [hdone, segments_nil, List.nil_append]
      cases bs with
      | nil =>
        obtain ⟨h', hnext, ha', hcr, hread'⟩ := ha.next_end 0 (by omega)
        have hsame := (moved_fetchNextChunk hnext).sameBindings
        refine ⟨⟨.noData, h', [], []⟩, by rw [fetchStmtResult_of_open ha.opened hnext],
          ⟨rfl, rfl, rfl⟩, ?_⟩
        have hscan := Scanning.onChunk ha' (by rw [hcr]; exact hhigh) (hread' hread) hcols
          (hr.of_same hsame (List.Subset.refl _))
        have hfirst' : h'.firstRow = h.firstRow := by simp only [firstRow, hcr]
        rw [hfirst', hdone] at hscan
        exact hscan
      | cons b bs =>
        obtain ⟨h', c', hnext, ha', hblock, hcols', hcr, hlast⟩ := ha.next_chunk 0 (by omega)
        have hsame := (moved_fetchNextChunk hnext).sameBindings
        have hsize := c'.size_pos
        have hr' : Readable E h' cols (c'.block :: bs) := by
          rw [hblock]
          exact hr.of_same hsame (List.subset_cons_self _ _)
        obtain ⟨d, rs, hd, hdel, hscan, hsplit⟩ :=
          deliver_scanning ha' (by rw [hcr]; omega) (.inl hlast) hcols' hr'
        have hfirst' : h'.firstRow = 0 := by simp only [firstRow, hcr]; rfl
        have hbrows : c'.rows = b.rows := by simp only [DataChunk.rows, hblock]
        rw [hfirst', List.drop_zero, hbrows, hsame.rowsetSize] at hsplit
        have hcons : rowsets h.rowsetSize (b :: bs) = h'.rowset c' :: rs := hsplit
        rw [hcons]
        exact ⟨d, by rw [fetchStmtResult_of_open ha.opened hnext]; exact hd, hdel, hscan⟩

/-! ## After an execution -/

/-- The handle of a batch that ended well : the result of its last run is open, and its
fetcher is cleared. -/
structure FreshResult (a : ExecAnswers ρ V) (b : Batch ρ V) : Prop where
  opened : b.h.opened = true
  res : b.h.res = some (a.results (runs b.log - 1))
  cleared : ∃ f : OdbcFetch ρ, b.h.odbcFetcher = f.clearChunks

theorem freshResult_of_batch {a : ExecAnswers ρ V} {h : OdbcHandleStmt ρ V} {ret : SqlReturn}
    {b : Batch ρ V} (hend : BatchEnds a h (.ok (ret, b))) (hret : ret.succeeded) :
    FreshResult a b := by
  obtain ⟨n, hn⟩ := hend
  -- a turn that does not fail runs the statement once
  have hturn : ∀ (b b' : Batch ρ V) (r : SqlReturn), runs b.log = b.turn →
      batchBody a b = .ok (r, b') → (r = .stillExecuting ∨ r.succeeded = true) →
      runs b'.log = b'.turn ∧ FreshResult a b' := by
    intro b b' r hb hbody hr
    obtain ⟨log, hx, hturn, hlog⟩ := batchBody_cases hbody
    obtain ⟨h', turn', log'⟩ := b'
    simp only at hx hturn hlog
    subst hturn hlog
    cases hx with
    | unread hfail => rcases hfail with rfl | rfl <;> simp [SqlReturn.succeeded] at hr
    | failed => simp [SqlReturn.succeeded] at hr
    | once _ _ _ _ hruns =>
      have hruns' : runs (b.log ++ log) = b.turn + 1 := by rw [runs_append, hb, hruns]
      exact ⟨hruns', rfl, by rw [hruns']; rfl, _, rfl⟩
    | set _ _ _ _ hruns =>
      have hruns' : runs (b.log ++ log) = b.turn + 1 := by rw [runs_append, hb, hruns]
      exact ⟨hruns', rfl, by rw [hruns']; rfl, _, rfl⟩
  refine DoWhile.run_invariant (batchBody a) (· = .stillExecuting) (fun b => runs b.log = b.turn)
    (fun x => ∀ ret b, x = .ok (ret, b) → ret.succeeded = true → FreshResult a b) ?_ ?_ ?_ rfl hn
    ret b rfl hret
  · intro b e _ _ ret b' hcontra
    cases hcontra
  · intro b r b' hb hbody hagain
    exact (hturn b b' r hb hbody (.inl (by simpa using hagain))).1
  · intro b r b' hb hbody _ ret₁ b₁ heq hsucc
    cases heq
    exact (hturn b b' r hb hbody (.inr hsucc)).2

/-- The cursor is in front of a result of `cols` columns, whose first chunk was taken from
the engine if it has one. -/
def InFront (h : OdbcHandleStmt ρ V) (cols : ℕ) : List (Block ρ) → Prop
  | [] => h.opened = true ∧ h.odbcFetcher.chunks = [] ∧ h.odbcFetcher.resultsetEnd = true ∧
      h.odbcFetcher.currentChunk = none ∧ h.odbcFetcher.currentChunkIdx = 0 ∧
      h.odbcFetcher.chunkRow = -1 ∧ h.odbcFetcher.priorChunkRow = -1
  | b :: bs => ∃ c, AtLast h cols c bs ∧ h.odbcFetcher.chunks = [c] ∧ c.block = b ∧
      c.columnCount = cols ∧ h.odbcFetcher.chunkRow = -1 ∧ h.odbcFetcher.priorChunkRow = -1 ∧
      h.odbcFetcher.lastFetched.length = 0

theorem InFront.of_odbcFetcher {h h' : OdbcHandleStmt ρ V} {cols : ℕ} {bs : List (Block ρ)}
    (hi : InFront h cols bs) (hfetcher : h'.odbcFetcher = h.odbcFetcher)
    (hopened : h'.opened = h.opened) (hres : h'.res = h.res) : InFront h' cols bs := by
  cases bs with
  | nil =>
    obtain ⟨hopen, hrest⟩ := hi
    exact ⟨hopened ▸ hopen, hfetcher ▸ hrest⟩
  | cons b bs =>
    obtain ⟨c, ha, hchunks, hblock, hcols, hrest⟩ := hi
    exact ⟨c, ⟨hopened ▸ ha.opened, hres ▸ ha.res, hfetcher ▸ ha.stored, hfetcher ▸ ha.current,
      hfetcher ▸ ha.idx, hfetcher ▸ ha.low, hfetcher ▸ ha.seen⟩, hfetcher ▸ hchunks, hblock, hcols,
      hfetcher ▸ hrest⟩

/-- `h'` is `h` after calls that set what a fetch reads of the application : the bound
columns, the descriptors, the pointer to the number of rows fetched, and the cursor type. -/
def Rebound (h h' : OdbcHandleStmt ρ V) : Prop :=
  ∃ bound desc ptr type diag, h' =
    { h with
      boundCols := bound
      rowDesc := desc
      rowsFetchedPtr := ptr
      odbcFetcher.cursorType := type
      diag := diag }

theorem Rebound.refl (h : OdbcHandleStmt ρ V) : Rebound h h :=
  ⟨h.boundCols, h.rowDesc, h.rowsFetchedPtr, h.odbcFetcher.cursorType, h.diag, rfl⟩

theorem InFront.rebound {h h' : OdbcHandleStmt ρ V} {cols : ℕ} {bs : List (Block ρ)}
    (hi : InFront h cols bs) (hr : Rebound h h') : InFront h' cols bs := by
  obtain ⟨bound, desc, ptr, type, diag, rfl⟩ := hr
  cases bs with
  | nil => exact hi
  | cons b bs =>
    obtain ⟨c, ha, hrest⟩ := hi
    exact ⟨c, ⟨ha.opened, ha.res, ha.stored, ha.current, ha.idx, ha.low, ha.seen⟩, hrest⟩

/-- A scan from the front of a result gives the rowsets of its chunks. -/
theorem InFront.scanning {E : Engine ρ V} {h : OdbcHandleStmt ρ V} {cols : ℕ} {bs : List (Block ρ)}
    (hi : InFront h cols bs) (hr : Readable E h cols bs) :
    Scanning E h (rowsets h.rowsetSize bs) := by
  cases bs with
  | nil => exact .empty hi.1 hi.2.1 hi.2.2.1 hi.2.2.2.1
  | cons b bs =>
    obtain ⟨c, ha, -, hblock, hcols, hcr, -, hlast⟩ := hi
    have hsize := c.size_pos
    have hscan := Scanning.onChunk ha (by rw [hcr]; omega)
      (.inl hlast) hcols (by rw [hblock]; exact hr)
    have hfirst : h.firstRow = 0 := by simp only [firstRow, hcr]; rfl
    have hrows : c.rows = b.rows := by simp only [DataChunk.rows, hblock]
    rw [hfirst, List.drop_zero, hrows] at hscan
    exact hscan

/-- The handle as `FetchFirst` leaves it to `FetchNext`. -/
def atFront (h : OdbcHandleStmt ρ V) : OdbcHandleStmt ρ V :=
  ({ h with odbcFetcher.cursorType := .dynamic } : OdbcHandleStmt ρ V).beforeStart.2

/-- A fetcher that was just cleared. -/
theorem atFront_cleared {h : OdbcHandleStmt ρ V} {f : OdbcFetch ρ}
    (hfetcher : h.odbcFetcher = f.clearChunks) :
    h.atFront.odbcFetcher.resultsetEnd = false ∧ h.atFront.odbcFetcher.chunks = [] ∧
      h.atFront.odbcFetcher.currentChunk = none := by
  simp [atFront, beforeStart, hfetcher, OdbcFetch.clearChunks]

theorem fetchFirst_of_cleared {h h' : OdbcHandleStmt ρ V} {f : OdbcFetch ρ} {ret : SqlReturn}
    (hfetcher : h.odbcFetcher = f.clearChunks) (hnext : h.atFront.fetchNext = .ok (ret, h')) :
    h.fetchFirst = .ok (ret, { h' with odbcFetcher.cursorType := h.odbcFetcher.cursorType }) := by
  unfold fetchFirst fetchNextChunk
  rw [if_neg (by simp)]
  have hfirst :
      ({ h with odbcFetcher.cursorType := .dynamic } : OdbcHandleStmt ρ V).setFirstCurrentChunk =
      .ok (ret, h') := by
    have hnone := (atFront_cleared hfetcher).2.2
    unfold atFront at hnone hnext
    unfold setFirstCurrentChunk
    dsimp only
    rw [hnone, hnext]
  change _ >>= _ = _
  rw [hfirst]
  rfl

/-- `FetchFirst` on a fresh result. -/
theorem fetchFirst_fresh {h : OdbcHandleStmt ρ V} {result : QueryResult ρ} (hopen : h.opened = true)
    (hres : h.res = some result) (hf : result.failure = none) {f : OdbcFetch ρ}
    (hfetcher : h.odbcFetcher = f.clearChunks) :
    ∃ ret h', h.fetchFirst = .ok (ret, h') ∧ ret ≠ .error ∧
      InFront h' result.columnCount result.pending := by
  obtain ⟨hend, hchunks, hcur⟩ := atFront_cleared hfetcher
  cases hp : result.pending with
  | nil =>
    have hnext := fetchNext_of_done (h := h.atFront) hend hres hp hf
    exact ⟨_, _, fetchFirst_of_cleared hfetcher hnext, by simp, hopen, hchunks, rfl, hcur,
      rfl, rfl, rfl⟩
  | cons b bs =>
    have hnext := fetchNext_onTaken (h := h.atFront) hend hres hp (by rw [hchunks]; simp)
    refine ⟨_, _, fetchFirst_of_cleared hfetcher hnext, by simp,
      ⟨result.fetched, result.columnCount, b⟩, ?_, ?_, rfl,
      rfl, rfl, rfl, rfl⟩
    · refine ⟨hopen, ⟨_, rfl, rfl, hf, rfl⟩, ?_, rfl, ?_, ?_, ?_⟩
      · simp [onTaken, atFront, beforeStart]
      · simp [onTaken, atFront, beforeStart]
      · simp [onTaken]
      · intro hseen
        exact absurd (hend.symm.trans hseen) (by simp)
    · simp [onTaken, hchunks]

/-- What `BatchExecuteStmt` does after its loop leaves the cursor in front of the result. -/
theorem batchFinish_inFront {a : ExecAnswers ρ V} {b : Batch ρ V} {ret : SqlReturn}
    {x : Executed ρ V} (hfresh : FreshResult a b) (hret : ret.succeeded)
    (hx : batchFinish ret b.h b.log = .ok x) {result : QueryResult ρ}
    (hresult : a.results (runs b.log - 1) = result) (hf : result.failure = none) :
    InFront x.h result.columnCount result.pending := by
  obtain ⟨f, hcleared⟩ := hfresh.cleared
  obtain ⟨fetchRet, h', hfirst, hne, hpos⟩ := fetchFirst_fresh hfresh.opened
    (hresult ▸ hfresh.res) hf hcleared
  unfold batchFinish at hx
  rw [if_neg (by simpa using hret), hfirst] at hx
  simp only [bind, Except.bind] at hx
  rw [if_neg hne] at hx
  -- the columns may be taken over from the result, the cursor stays
  split at hx
  · cases hx
  · split at hx
    · cases hx
      exact hpos.of_odbcFetcher rfl rfl rfl
    · split at hx
      · cases hx
      · cases hx
        exact hpos.of_odbcFetcher rfl rfl rfl

/-- A batch that succeeded leaves the cursor in front of its result. -/
theorem inFront_of_execute {k : ℕ} {a : ExecAnswers ρ V} {h : OdbcHandleStmt ρ V}
    {x : Executed ρ V} (hx : h.batchExecuteStmt k a = some (.ok x)) (hret : x.ret.succeeded)
    {result : QueryResult ρ} (hresult : a.results (runs x.log - 1) = result)
    (hf : result.failure = none) : InFront x.h result.columnCount result.pending := by
  obtain ⟨y, hrun, hfinish⟩ := Option.map_eq_some_iff.1 hx
  obtain ⟨⟨ret, b⟩, rfl, hfinish⟩ := Outcome.bind_eq_ok.1 hfinish
  obtain ⟨hlog, -, hsucc⟩ := batchFinish_cases hfinish
  have hfresh := freshResult_of_batch ⟨k, hrun⟩ (hsucc hret)
  exact batchFinish_inFront hfresh (hsucc hret) hfinish (hlog ▸ hresult) hf

/-- One fetch of a scan, with the handle after it. -/
def scanStep (E : Engine ρ V) (h : OdbcHandleStmt ρ V) (_ : Unit) :
    Except Fault (Delivery ρ V × OdbcHandleStmt ρ V) :=
  (h.fetchStmtResult E .next 0).map fun d => (d, d.h)

/-- The first `m` fetches of a scan. -/
def scan (E : Engine ρ V) (h : OdbcHandleStmt ρ V) (m : ℕ) :
    Except Fault (List (Delivery ρ V) × OdbcHandleStmt ρ V) :=
  Run.outputs (scanStep E) h (List.replicate m ())

/-- A scan through states that stand for the rowsets that are left, as long as they have the
property `P` : its `i`-th fetch delivers the `i`-th of them, or finds no data. -/
theorem scan_of_step {E : Engine ρ V} (I : OdbcHandleStmt ρ V → List (List ρ) → Prop)
    (P : OdbcHandleStmt ρ V → Prop)
    (hstep : ∀ h rs, I h rs → P h → ∃ d, h.fetchStmtResult E .next 0 = .ok d ∧
      Delivers rs.head? d ∧ I d.h rs.tail)
    {h : OdbcHandleStmt ρ V} {rs : List (List ρ)} (hI : I h rs) {m : ℕ}
    (hP : Run.Along (fun h i h' => ∃ d, scanStep E h i = .ok (d, h')) (fun h _ => P h) h
      (List.replicate m ())) :
    ∃ ds h', h.scan E m = .ok (ds, h') ∧ ds.length = m ∧
      ∀ (i : ℕ) d, ds[i]? = some d → Delivers rs[i]? d := by
  obtain ⟨ds, h', hrun, hlen, -, hans⟩ := Run.outputs_of_abstraction (scanStep E) I
    (fun rs _ => rs.tail) (fun rs _ d => Delivers rs.head? d) (fun h _ => P h)
    (by
      intro h rs _ hI hP
      obtain ⟨d, hd, hans, hI'⟩ := hstep h rs hI hP
      exact ⟨d, d.h, by simp [scanStep, hd, Except.map], hans, hI'⟩)
    hI hP
  refine ⟨ds, h', hrun, by simpa using hlen, fun i d hd => ?_⟩
  have hlt : i < m := by
    have := (List.getElem?_eq_some_iff.1 hd).1
    simpa [hlen] using this
  have := hans i () d (by simp [hlt]) hd
  have hdrop : ∀ (l : List Unit) (rs : List (List ρ)),
      l.foldl (fun rs _ => rs.tail) rs = rs.drop l.length := by
    intro l
    induction l with
    | nil => intro rs; rfl
    | cons u l ih => intro rs; rw [List.foldl_cons, ih, List.drop_tail, List.length_cons]
  rw [hdrop, List.head?_drop, List.length_take, List.length_replicate,
    Nat.min_eq_left (Nat.le_of_lt hlt)] at this
  exact this

/-- The `i`-th fetch of a scan delivers the `i`-th rowset that was left, or finds no data. -/
theorem scan_of_scanning {E : Engine ρ V} {h : OdbcHandleStmt ρ V} {rs : List (List ρ)}
    (hs : Scanning E h rs) (m : ℕ) :
    ∃ ds h', h.scan E m = .ok (ds, h') ∧ ds.length = m ∧
      ∀ (i : ℕ) d, ds[i]? = some d → Delivers rs[i]? d :=
  scan_of_step (Scanning E) (fun _ => True) (fun _ _ hs _ => scanning_step hs) hs
    (Run.along_of_forall (fun _ _ _ => trivial) h)

/-- The fetches of a scan deliver the rowsets `rs` one after the other, and then find no data. -/
def Yields (E : Engine ρ V) (h : OdbcHandleStmt ρ V) (rs : List (List ρ)) : Prop :=
  ∀ m, ∃ ds h', h.scan E m = .ok (ds, h') ∧ ds.length = m ∧
    ∀ (i : ℕ) d, ds[i]? = some d → Delivers rs[i]? d

/-- After a batch that succeeded, with the columns bound before or after it, the fetches of a
scan deliver all the rows of the result, once and in order, between one and `n` of them
each, and then find no data. -/
theorem scan_after_execute (E : Engine ρ V) {k : ℕ} {a : ExecAnswers ρ V}
    {h h' : OdbcHandleStmt ρ V}
    {x : Executed ρ V} (hx : h.batchExecuteStmt k a = some (.ok x)) (hret : x.ret.succeeded)
    {result : QueryResult ρ} (hresult : a.results (runs x.log - 1) = result)
    (hf : result.failure = none) (hbound : Rebound x.h h') (hb : Bindings h' result.columnCount)
    (hconv : ∀ b ∈ result.pending, BlockConverts E h' b) :
    ∃ rs : List (List ρ), rs.flatten = result.pending.flatMap Block.rows ∧
      (∀ r ∈ rs, 1 ≤ r.length ∧ r.length ≤ h'.rowsetSize) ∧ Yields E h' rs := by
  have hfront := (inFront_of_execute hx hret hresult hf).rebound hbound
  exact ⟨rowsets h'.rowsetSize result.pending, flatten_rowsets hb.pos _,
    fun _ hr => length_of_mem_rowsets hb.pos hr,
    scan_of_scanning (hfront.scanning (.inl ⟨hb, hconv⟩))⟩

/-- The byte of a row converts to a column of bytes. -/
theorem byteEngine_converts {c : OdbcBoundCol} (hc : c.type = .utinyint) (i row : ℕ)
    {valAddr : Addr}
    (lenAddr : Addr) (hval : valAddr ≠ 0) : Converts byteEngine c i row valAddr lenAddr := by
  intro h hget _
  have hget' : h.getValue byteEngine (i + 1 - 1) = .ok (some row) := hget
  refine ⟨⟨.success, h, .data valAddr [UInt8.ofNat row] ::
    if lenAddr ≠ 0 then [.ind lenAddr 1] else []⟩, ?_, rfl⟩
  unfold getDataStmtResult
  rw [hc, if_neg (by simp [hval])]
  dsimp only
  rw [hget']
  rfl

/-- A prepared query with one column, bound to an array of bytes, and two rows a rowset. -/
def preparedBytes : OdbcHandleStmt ℕ ℕ :=
  { (blank : OdbcHandleStmt ℕ ℕ) with
    stmt := some ⟨none, 0, 1, true, false⟩
    boundCols := [⟨.utinyint, 100, 1, 200⟩]
    rowsFetchedPtr := 8
    rowDesc := { ard := { arraySize := 2 } } }

theorem preparedBytes_converts (b : Block ℕ) : BlockConverts byteEngine preparedBytes b := by
  intro k row _ i c hc _
  obtain rfl : c = ⟨.utinyint, 100, 1, 200⟩ := by
    cases i with
    | zero => exact (Option.some.inj hc).symm
    | succ i => simp [preparedBytes] at hc
  refine byteEngine_converts rfl i row _ ?_
  change (100 : ℤ) + k * 1 ≠ 0
  omega

/-- Three rows in a chunk and one in another, two rows a rowset. -/
theorem scan_after_execute_bytes :
    ∃ x, preparedBytes.batchExecuteStmt 1 (select 1 [⟨[1, 2, 3], by simp⟩, ⟨[4], by simp⟩]).exec =
        some (.ok x) ∧
      ∃ rs : List (List ℕ), rs.flatten = [1, 2, 3, 4] ∧ (∀ r ∈ rs, 1 ≤ r.length ∧ r.length ≤ 2) ∧
        Yields byteEngine x.h rs := by
  obtain ⟨rs, hflat, hlen, hyields⟩ := scan_after_execute byteEngine (k := 1) (h := preparedBytes)
    (a := (select 1 [⟨[1, 2, 3], by simp⟩, ⟨[4], by simp⟩]).exec) rfl rfl rfl rfl (.refl _)
    ⟨rfl, List.cons_ne_nil _ _, by decide, by decide, by decide⟩
    (fun b _ => preparedBytes_converts b)
  exact ⟨_, rfl, rs, hflat, hlen, hyields⟩

/-! ## Two divisions of the same rows -/

/-- What a fetch delivers is determined by it. -/
theorem Delivers.unique {r r' : Option (List ρ)} {d : Delivery ρ V} (hd : Delivers r d)
    (hd' : Delivers r' d) : r = r' := by
  cases r with
  | none =>
    cases r' with
    | none => rfl
    | some r' => exact absurd (hd.1 ▸ hd'.1) (by decide)
  | some r =>
    cases r' with
    | none => exact absurd (hd'.1 ▸ hd.1) (by decide)
    | some r' => rw [← hd.2.1, ← hd'.2.1]

theorem Yields.unique {E : Engine ρ V} {h : OdbcHandleStmt ρ V} {rs rs' : List (List ρ)}
    (hy : Yields E h rs) (hy' : Yields E h rs') : rs = rs' := by
  refine List.ext_getElem? fun i => ?_
  obtain ⟨ds, h₁, hscan, hlen, hdel⟩ := hy (i + 1)
  obtain ⟨ds', h₂, hscan', -, hdel'⟩ := hy' (i + 1)
  obtain ⟨rfl, -⟩ := Prod.mk.inj (Except.ok.inj (hscan.symm.trans hscan'))
  have hget : ds[i]? = some ds[i] := List.getElem?_eq_getElem (by omega)
  exact (hdel i _ hget).unique (hdel' i _ hget)

/-- The first fetch of a scan. -/
theorem Yields.first {E : Engine ρ V} {h : OdbcHandleStmt ρ V} {rs : List (List ρ)}
    (hy : Yields E h rs) : ∃ d, h.fetchStmtResult E .next 0 = .ok d ∧ Delivers rs.head? d := by
  obtain ⟨ds, h', hscan, hlen, hdel⟩ := hy 1
  cases hfetch : h.fetchStmtResult E .next 0 with
  | error e => simp [scan, scanStep, Run.outputs, hfetch, Except.map] at hscan
  | ok d =>
    simp only [scan, scanStep, List.replicate, Run.outputs, hfetch, Except.map, Except.ok.injEq,
      Prod.mk.injEq] at hscan
    obtain ⟨rfl, -⟩ := hscan
    exact ⟨d, rfl, by rw [List.head?_eq_getElem?]; exact hdel 0 d rfl⟩

/-- A statement was executed and its columns are bound : its result is read without an error,
and the bound cells all convert. -/
structure ScanReady (E : Engine ρ V) (h : OdbcHandleStmt ρ V) (result : QueryResult ρ) : Prop where
  run : ∃ (k : ℕ) (a : ExecAnswers ρ V) (h₀ : OdbcHandleStmt ρ V) (x : Executed ρ V),
    h₀.batchExecuteStmt k a = some (.ok x) ∧ x.ret.succeeded = true ∧
      a.results (runs x.log - 1) = result ∧ Rebound x.h h
  failure : result.failure = none
  pos : 1 ≤ h.rowsetSize
  bindings : h.boundCols ≠ [] → Bindings h result.columnCount
  converts : ∀ b ∈ result.pending, BlockConverts E h b

theorem ScanReady.inFront {E : Engine ρ V} {h : OdbcHandleStmt ρ V} {result : QueryResult ρ}
    (hx : ScanReady E h result) : InFront h result.columnCount result.pending := by
  obtain ⟨k, a, h₀, x, hrun, hret, hresult, hbound⟩ := hx.run
  exact (inFront_of_execute hrun hret hresult hx.failure).rebound hbound

/-- A fetch reads its rows one by one, by filling the bound columns or by single rows. -/
def ReadsRows (h : OdbcHandleStmt ρ V) : Prop := h.boundCols ≠ [] ∨ h.rowsetSize = 1

theorem ScanReady.yields {E : Engine ρ V} {h : OdbcHandleStmt ρ V} {result : QueryResult ρ}
    (hx : ScanReady E h result) (hreads : ReadsRows h) :
    Yields E h (rowsets h.rowsetSize result.pending) := by
  refine scan_of_scanning (hx.inFront.scanning ?_)
  by_cases hb : h.boundCols = []
  · exact .inr ⟨hb, hreads.resolve_left (by simpa using hb)⟩
  · exact .inl ⟨hx.bindings hb, hx.converts⟩

/-- Without a bound column, a fetch of several rows from the front of a result has at most
the last of them. -/
theorem InFront.first_unbound {E : Engine ρ V} {h : OdbcHandleStmt ρ V} {cols : ℕ} {b : Block ρ}
    {bs : List (Block ρ)} (hi : InFront h cols (b :: bs)) (hb : h.boundCols = []) :
    ∃ d, h.fetchStmtResult E .next 0 = .ok d ∧ d.ret = .success ∧
      d.rows = (b.rows[(-1 + h.rowsetSize : ℤ).toNat]?).toList := by
  obtain ⟨c, ha, -, hblock, -, hcr, -⟩ := hi
  have hsize := c.size_pos
  obtain ⟨d, hd, hret, hrows, -⟩ := deliver_unbound (E := E) (h := h.noted) hb ha.noted.deref
  refine ⟨d, ?_, hret, ?_⟩
  · rw [fetchStmtResult_of_open ha.opened (ha.next_within 0 (by rw [hcr]; omega))]
    exact hd
  · have hrow : h.noted.odbcFetcher.chunkRow = -1 := hcr
    have hbrows : c.rows = b.rows := by simp only [DataChunk.rows, hblock]
    rw [hrows, hrow, hbrows]
    rfl

/-- The rowsets of a scan without a bound column are not the full rowsets of its rows. -/
theorem InFront.not_full_of_unbound {E : Engine ρ V} {h : OdbcHandleStmt ρ V} {cols : ℕ}
    {bs : List (Block ρ)} (hi : InFront h cols bs) (hne : bs ≠ []) (hb : h.boundCols = [])
    (hn : 2 ≤ h.rowsetSize) {rs : List (List ρ)} (hflat : rs.flatten = bs.flatMap Block.rows)
    (hfull : Full h.rowsetSize rs) : ¬Yields E h rs := by
  intro hy
  obtain ⟨b, bs, rfl⟩ := List.exists_cons_of_ne_nil hne
  obtain ⟨d, hd, hdel⟩ := hy.first
  obtain ⟨d', hd', -, hrows⟩ := hi.first_unbound (E := E) hb
  obtain rfl : d = d' := Except.ok.inj (hd.symm.trans hd')
  have hpos := List.length_pos_iff.2 b.ne
  have hsum : rs.flatten.length = b.rows.length + (bs.flatMap Block.rows).length := by
    rw [hflat, List.flatMap_cons, List.length_append]
  cases rs with
  | nil =>
    simp only [List.flatten_nil, List.length_nil] at hsum
    omega
  | cons r rs =>
    obtain ⟨-, hr, -⟩ : d.ret.succeeded = true ∧ d.rows = r ∧ StoresCount d r.length := hdel
    have hle : r.length ≤ 1 := by
      rw [← hr, hrows, Option.length_toList]
      split <;> simp
    -- the first rowset is too short to be followed by another one
    have hrs : rs = [] := by
      by_contra hrs
      have := hfull r (by rw [List.dropLast_cons_of_ne_nil hrs]; simp)
      omega
    subst hrs
    simp only [List.flatten_cons, List.flatten_nil, List.append_nil] at hsum
    have hlast : b.rows[(-1 + h.rowsetSize : ℤ).toNat]? = none := List.getElem?_eq_none (by omega)
    rw [hlast] at hrows
    rw [← hr, hrows] at hsum
    simp only [Option.toList_none, List.length_nil] at hsum
    omega

/-- Both scans deliver the same rowsets of the rows, which are full but for the last one. -/
def SameRowsets (E : Engine ρ V) (h h' : OdbcHandleStmt ρ V) (rows : List ρ) : Prop :=
  ∃ rs : List (List ρ), rs.flatten = rows ∧ Full h.rowsetSize rs ∧ Yields E h rs ∧ Yields E h' rs

/-- Every chunk but the last one has a multiple of `n` rows. -/
def Aligned (n : ℕ) (bs : List (Block ρ)) : Prop := ∀ b ∈ bs.dropLast, n ∣ b.rows.length

theorem full_rowsets_iff {n : ℕ} (hn : 1 ≤ n) (bs : List (Block ρ)) :
    Full n (rowsets n bs) ↔ Aligned n bs := by
  have hmap : rowsets n bs = (bs.map Block.rows).flatMap (segments n) := by
    rw [rowsets, List.flatMap_map]
  rw [hmap, full_flatMap_segments_iff hn (by simpa using fun b _ => b.ne), ← List.map_dropLast,
    List.forall_mem_map]
  rfl

/-- Two scans of the same rows in different chunks. -/
theorem sameRowsets_iff {E : Engine ρ V} {h h' : OdbcHandleStmt ρ V}
    {result result' : QueryResult ρ}
    (hx : ScanReady E h result) (hx' : ScanReady E h' result')
    (hrows : result'.pending.flatMap Block.rows = result.pending.flatMap Block.rows)
    (hn : h'.rowsetSize = h.rowsetSize) (hb : h'.boundCols = h.boundCols) :
    SameRowsets E h h' (result.pending.flatMap Block.rows) ↔
      result.pending = [] ∨ (ReadsRows h ∧ Aligned h.rowsetSize result.pending ∧
        Aligned h.rowsetSize result'.pending) := by
  have hreads : ReadsRows h' ↔ ReadsRows h := by simp only [ReadsRows, hn, hb]
  constructor
  · rintro ⟨rs, hflat, hfull, hy, hy'⟩
    by_cases hne : result.pending = []
    · exact .inl hne
    · refine .inr ?_
      have hr : ReadsRows h := by
        by_contra hr
        simp only [ReadsRows, not_or, not_not] at hr
        have hpos := hx.pos
        exact hx.inFront.not_full_of_unbound hne hr.1 (by omega) hflat hfull hy
      have heq := hy.unique (hx.yields hr)
      have heq' := hy'.unique (hx'.yields (hreads.2 hr))
      rw [hn] at heq'
      exact ⟨hr, (full_rowsets_iff hx.pos _).1 (heq ▸ hfull),
        (full_rowsets_iff hx.pos _).1 (heq' ▸ hfull)⟩
  · rintro (hnil | ⟨hr, hal, hal'⟩)
    · have hnil' : result'.pending = [] := by
        rw [hnil, List.flatMap_nil, List.flatMap_eq_nil_iff] at hrows
        exact List.eq_nil_iff_forall_not_mem.2 fun b hb => b.ne (hrows b hb)
      have hi := hx.inFront
      have hi' := hx'.inFront
      rw [hnil] at hi
      rw [hnil'] at hi'
      refine ⟨[], by rw [hnil]; rfl, nofun, ?_, ?_⟩
      · exact scan_of_scanning (.empty hi.1 hi.2.1 hi.2.2.1 hi.2.2.2.1)
      · exact scan_of_scanning (.empty hi'.1 hi'.2.1 hi'.2.2.1 hi'.2.2.2.1)
    · have hfull := (full_rowsets_iff hx.pos _).2 hal
      have hfull' := (full_rowsets_iff hx.pos _).2 hal'
      have hsame : rowsets h.rowsetSize result'.pending = rowsets h.rowsetSize result.pending := by
        rw [eq_segments_of_full hfull' fun _ hr => length_of_mem_rowsets hx.pos hr,
          eq_segments_of_full hfull fun _ hr => length_of_mem_rowsets hx.pos hr,
          flatten_rowsets hx.pos, flatten_rowsets hx.pos, hrows]
      refine ⟨_, flatten_rowsets hx.pos _, hfull, hx.yields hr, ?_⟩
      have hy' := hx'.yields (hreads.2 hr)
      rwa [hn, hsame] at hy'

/-- The statement of the scan above, executed with a result in the given chunks. -/
theorem preparedBytes_scanReady (b : Block ℕ) (bs : List (Block ℕ)) :
    ∃ x, preparedBytes.batchExecuteStmt 1 (select 1 (b :: bs)).exec = some (.ok x) ∧
      ScanReady byteEngine x.h (queryResult 1 (b :: bs)) ∧ SameBindings preparedBytes x.h := by
  have hb : Bindings preparedBytes 1 :=
    ⟨rfl, List.cons_ne_nil _ _, by decide, by decide, by decide⟩
  obtain ⟨x, hrun, hret, hs⟩ : ∃ x, preparedBytes.batchExecuteStmt 1 (select 1 (b :: bs)).exec =
      some (.ok x) ∧ x.ret.succeeded = true ∧ SameBindings preparedBytes x.h :=
    ⟨_, rfl, rfl, rfl, rfl, rfl, rfl⟩
  refine ⟨x, hrun, ⟨⟨1, _, preparedBytes, x, hrun, hret, rfl, .refl _⟩, rfl, ?_,
    fun _ => hb.of_same hs, ?_⟩, hs⟩
  · rw [hs.rowsetSize]
    exact hb.pos
  · exact fun b _ => (preparedBytes_converts b).of_same hs

/-- Two rows a rowset : chunks of two rows and one row, and a chunk of three rows. -/
theorem sameRowsets_iff_bytes :
    ∃ x x', preparedBytes.batchExecuteStmt 1 (select 1 [⟨[1, 2], by simp⟩, ⟨[3], by simp⟩]).exec =
        some (.ok x) ∧
      preparedBytes.batchExecuteStmt 1 (select 1 [⟨[1, 2, 3], by simp⟩]).exec = some (.ok x') ∧
      SameRowsets byteEngine x.h x'.h [1, 2, 3] := by
  obtain ⟨x, hrun, hx, hs⟩ := preparedBytes_scanReady ⟨[1, 2], by simp⟩ [⟨[3], by simp⟩]
  obtain ⟨x', hrun', hx', hs'⟩ := preparedBytes_scanReady ⟨[1, 2, 3], by simp⟩ []
  have hn : x.h.rowsetSize = 2 := hs.rowsetSize
  refine ⟨x, x', hrun, hrun', (sameRowsets_iff hx hx' rfl (hs'.rowsetSize.trans hs.rowsetSize.symm)
    (hs'.2.1.trans hs.2.1.symm)).2 (.inr ⟨.inl ?_, ?_, ?_⟩)⟩
  · rw [hs.2.1]
    exact List.cons_ne_nil _ _
  · rw [hn]
    simp [Aligned, queryResult]
  · rw [hn]
    simp [Aligned, queryResult]

/-- Two rows a rowset, and a chunk of one row in front of three others : the first rowset
ends with its chunk. -/
theorem rowset_ends_with_chunk :
    ∃ x x', preparedBytes.batchExecuteStmt 1
        (select 1 [⟨[1], by simp⟩, ⟨[2, 3, 4], by simp⟩]).exec = some (.ok x) ∧
      preparedBytes.batchExecuteStmt 1 (select 1 [⟨[1, 2, 3, 4], by simp⟩]).exec = some (.ok x') ∧
      ¬SameRowsets byteEngine x.h x'.h [1, 2, 3, 4] := by
  obtain ⟨x, hrun, hx, hs⟩ := preparedBytes_scanReady ⟨[1], by simp⟩ [⟨[2, 3, 4], by simp⟩]
  obtain ⟨x', hrun', -, -⟩ := preparedBytes_scanReady ⟨[1, 2, 3, 4], by simp⟩ []
  refine ⟨x, x', hrun, hrun', ?_⟩
  rintro ⟨rs, -, hfull, hy, -⟩
  have hreads : ReadsRows x.h := .inl (by rw [hs.2.1]; exact List.cons_ne_nil _ _)
  have hn : x.h.rowsetSize = 2 := hs.rowsetSize
  rw [hy.unique (hx.yields hreads), full_rowsets_iff hx.pos, hn] at hfull
  exact absurd (hfull _ (List.mem_singleton_self _)) (by decide)

end OdbcHandleStmt

end HaybarnOdbc
