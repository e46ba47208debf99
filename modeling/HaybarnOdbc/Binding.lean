import HaybarnOdbc.Scan

/-!
# Where a rowset is stored

A bound column is an array with an element for every row of a rowset. The element of the
`i`-th row delivered is at `base + i * size` (`elements`), with the size of an element
column-wise and the size of a row row-wise.

`ColumnWise` and `RowWise` count the rows of the current chunk instead : the row `rowIdx` of
the chunk goes to the element `rowIdx` (`rowStored_deliverRows`). The two agree on the
rowsets that start their chunk, if the column has both arrays and the stride of its type
(`Placed`).
-/

namespace HaybarnOdbc

variable {ρ V : Type}

namespace OdbcHandleStmt

/-- The size of an element of a column-wise array : the bytes stored for a C type of fixed
size, the length of the buffer for any other. -/
def elementSize (b : OdbcBoundCol) : ℤ :=
  match b.type.storedSize with
  | some k => k
  | none => b.len

/-- The elements of the bound columns. An array that is not there has no elements. -/
def elements (h : OdbcHandleStmt ρ V) : CellPlace where
  takes := h.place.takes
  valAddr b i :=
    if b.ptr = 0 then 0
    else b.ptr + i * if h.rowDesc.ard.bindType = 0 then elementSize b else h.rowDesc.ard.bindType
  lenAddr b i :=
    if b.strlenOrInd = 0 then 0
    else b.strlenOrInd + i * if h.rowDesc.ard.bindType = 0 then 8 else h.rowDesc.ard.bindType

/-- The cursor is on `row`. -/
def OnRow (h : OdbcHandleStmt ρ V) (row : ρ) : Prop :=
  ∃ c, h.odbcFetcher.deref = .ok c ∧ c.rows[h.odbcFetcher.chunkRow.toNat]? = some row

/-- The stores of a cell of `row` at the places of `slot` : the ones of reading it there,
and the status of the row if that failed. -/
def CellStored (E : Engine ρ V) (h : OdbcHandleStmt ρ V) (place : CellPlace) (slot : ℕ) (row : ρ)
    (i : ℕ) (b : OdbcBoundCol) (ws : List Write) : Prop :=
  if place.takes b then
    ∃ h₁ got, OnRow h₁ row ∧
      h₁.getDataStmtResult E (i + 1) b.type (place.valAddr b slot) b.len (place.lenAddr b slot) =
        .ok got ∧
      ws = got.writes ++ if got.ret.succeeded then [] else h.setRowStatus slot .error
  else ws = []

/-- The bound columns that the statement has. -/
def boundColumns (h : OdbcHandleStmt ρ V) : List OdbcBoundCol :=
  match h.columnCount with
  | .ok count => h.boundCols.take count
  | .error _ => []

/-- The stores of `row` at the places of `slot` : its status, and its cells. -/
def RowStored (E : Engine ρ V) (h : OdbcHandleStmt ρ V) (place : CellPlace) (slot : ℕ) (row : ρ)
    (ws : List Write) : Prop :=
  ∃ cells : List (List Write), cells.length = h.boundColumns.length ∧
    ws = h.setRowStatus slot .success ++ cells.flatten ∧
    ∀ (i : ℕ) cell, cells[i]? = some cell →
      ∃ b, h.boundCols[i]? = some b ∧ CellStored E h place slot row i b cell

/-! ## What the code stores -/

theorem SameCursor.onRow {h h' : OdbcHandleStmt ρ V} (hs : SameCursor h h') {row : ρ}
    (hrow : OnRow h row) : OnRow h' row := by
  obtain ⟨last, diag, rfl⟩ := hs
  exact hrow

theorem SameChunk.sameBindings {h h' : OdbcHandleStmt ρ V} (hs : SameChunk h h') :
    SameBindings h h' := by
  obtain ⟨row, count, last, diag, rfl⟩ := hs
  exact ⟨rfl, rfl, rfl, rfl⟩

theorem SameBindings.setRowStatus {h h' : OdbcHandleStmt ρ V} (hs : SameBindings h h') (slot : ℕ)
    (st : RowStatus) : h'.setRowStatus slot st = h.setRowStatus slot st := by
  unfold OdbcHandleStmt.setRowStatus
  rw [hs.2.2.1]

theorem SameBindings.boundColumns {h h' : OdbcHandleStmt ρ V} (hs : SameBindings h h') :
    h'.boundColumns = h.boundColumns := by
  unfold OdbcHandleStmt.boundColumns columnCount
  rw [hs.1, hs.2.1]

theorem SameBindings.cellStored {E : Engine ρ V} {h h' : OdbcHandleStmt ρ V}
    (hs : SameBindings h h')
    {place : CellPlace} {slot i : ℕ} {row : ρ} {b : OdbcBoundCol} {ws : List Write}
    (hc : CellStored E h' place slot row i b ws) : CellStored E h place slot row i b ws := by
  unfold CellStored at hc ⊢
  rwa [hs.setRowStatus] at hc

theorem SameBindings.rowStored {E : Engine ρ V} {h h' : OdbcHandleStmt ρ V} (hs : SameBindings h h')
    {place : CellPlace} {slot : ℕ} {row : ρ} {ws : List Write}
    (hr : RowStored E h' place slot row ws) : RowStored E h place slot row ws := by
  obtain ⟨cells, hcount, hws, hcells⟩ := hr
  refine ⟨cells, hs.boundColumns ▸ hcount, hs.setRowStatus slot .success ▸ hws,
    fun i cell hcell => ?_⟩
  obtain ⟨b, hb, hc⟩ := hcells i cell hcell
  exact ⟨b, hs.2.1 ▸ hb, hs.cellStored hc⟩

/-- A cell that is delivered is stored in its buffer. -/
theorem cellStored_deliverCell {E : Engine ρ V} {place : CellPlace} {slot i : ℕ}
    {d d' : Delivery ρ V}
    {row : ρ} (hrow : OnRow d.h row) (hx : deliverCell E place slot d i = .ok d') :
    ∃ ws, d'.writes = d.writes ++ ws ∧
      ∃ b, d.h.boundCols[i]? = some b ∧ CellStored E d.h place slot row i b ws := by
  unfold deliverCell at hx
  split at hx
  · cases hx
  · next b hb =>
    split at hx
    · next htakes =>
      obtain ⟨got, hgot, hx⟩ := Outcome.bind_eq_ok.1 hx
      cases hx
      refine ⟨_, List.append_assoc _ _ _, b, hb, ?_⟩
      unfold CellStored
      rw [if_pos htakes]
      have hs := (sameCursor_getDataStmtResult hgot).sameChunk.sameBindings
      exact ⟨d.h, got, hrow, hgot, by rw [hs.setRowStatus]⟩
    · next htakes =>
      cases hx
      exact ⟨[], by simp, b, hb, by unfold CellStored; rw [if_neg htakes]⟩

/-- A row that is delivered is stored in the buffers of its columns. -/
theorem rowStored_deliverRow {E : Engine ρ V} {place : CellPlace} {slot : ℕ} {d d' : Delivery ρ V}
    {c : DataChunk ρ} {row : ρ} (hc : d.h.odbcFetcher.deref = .ok c)
    (hrow : c.rows[(d.h.odbcFetcher.chunkRow + 1).toNat]? = some row)
    (hx : deliverRow E place d slot = .ok d') :
    ∃ ws, d'.writes = d.writes ++ ws ∧ RowStored E d.h place slot row ws := by
  unfold deliverRow at hx
  obtain ⟨c₁, hc₁, hx⟩ := Outcome.bind_eq_ok.1 hx
  obtain ⟨count, hcount, hx⟩ := Outcome.bind_eq_ok.1 hx
  have hon : OnRow (d.h.ahead 1) row := ⟨c, hc, hrow⟩
  obtain ⟨cells, hlen, hlog, hcells⟩ := Outcome.foldlM_log Delivery.writes (List.range count)
    (fun _ d₁ => SameCursor (d.h.ahead 1) d₁.h)
    (fun _ i ws => ∃ b, d.h.boundCols[i]? = some b ∧ CellStored E d.h place slot row i b ws)
    (by
      intro k i d₁ d₂ _ hs hcell
      refine ⟨hs.trans (deliverCell_cases hcell).1, ?_⟩
      have hsame := ((sameChunk_ahead d.h 1).trans hs.sameChunk).sameBindings
      obtain ⟨ws, hws, b, hb, hstored⟩ := cellStored_deliverCell (hs.onRow hon) hcell
      exact ⟨ws, hws, b, hsame.2.1 ▸ hb, hsame.cellStored hstored⟩)
    (.refl _) hx
  rw [List.length_range] at hlen
  have hcells' : ∀ (i : ℕ) cell, cells[i]? = some cell →
      ∃ b, d.h.boundCols[i]? = some b ∧ CellStored E d.h place slot row i b cell := by
    intro i cell hcell
    have hi : i < count := hlen ▸ (List.getElem?_eq_some_iff.1 hcell).1
    exact hcells i i cell (List.getElem?_range hi) hcell
  -- every column of the statement has a bound column
  have hle : count ≤ d.h.boundCols.length := by
    rcases Nat.eq_zero_or_pos count with hzero | hpos
    · omega
    · have hlast : count - 1 < cells.length := by omega
      obtain ⟨b, hb, -⟩ := hcells' (count - 1) _ (List.getElem?_eq_getElem hlast)
      have := (List.getElem?_eq_some_iff.1 hb).1
      omega
  have hcount' : d.h.columnCount = .ok count := hcount
  have hbound : d.h.boundColumns.length = count := by
    simp only [boundColumns, hcount', List.length_take]
    omega
  refine ⟨d.h.setRowStatus slot .success ++ cells.flatten, ?_, cells, by rw [hlen, hbound],
    rfl, hcells'⟩
  rw [hlog]
  exact List.append_assoc _ _ _

/-- The loop over the rows stores the row `rowIdx` of the chunk at the places of `rowIdx`. -/
theorem rowStored_deliverRows {E : Engine ρ V} {place : CellPlace} {h : OdbcHandleStmt ρ V}
    {c : DataChunk ρ} (hc : h.odbcFetcher.deref = .ok c) (hlow : -1 ≤ h.odbcFetcher.chunkRow)
    {d : Delivery ρ V} (hx : h.deliverRows E place = .ok d) :
    ∃ segs : List (List Write), segs.length = (h.rowset c).length ∧ d.writes = segs.flatten ∧
      ∀ (i : ℕ) row ws, (h.rowset c)[i]? = some row → segs[i]? = some ws →
        RowStored E h place (h.firstRow + i) row ws := by
  unfold deliverRows at hx
  obtain ⟨c₁, hc₁, hx⟩ := Outcome.bind_eq_ok.1 hx
  obtain rfl : c = c₁ := Except.ok.inj (hc.symm.trans hc₁)
  have hfirst := firstRow_of_low hlow
  obtain ⟨segs, hlen, hlog, hsegs⟩ := Outcome.foldlM_log Delivery.writes
    (List.range' h.firstRow (h.lastRow c - h.firstRow))
    (fun k d₁ => SameCursor (h.ahead k) d₁.h)
    (fun _ slot ws => ∀ row, c.rows[slot]? = some row → RowStored E h place slot row ws)
    (by
      intro k slot d₁ d₂ hslot hs hrow
      have hderef : d₁.h.odbcFetcher.deref = .ok c := by rw [hs.deref]; exact hc
      obtain ⟨hs', -⟩ := deliverRow_cases hderef hrow
      refine ⟨by rw [← ahead_ahead]; exact (hs.ahead 1).trans hs', ?_⟩
      have hlt : k < h.lastRow c - h.firstRow := by
        simpa using (List.getElem?_eq_some_iff.1 hslot).1
      obtain rfl : h.firstRow + k = slot := by simpa [List.getElem?_range' hlt] using hslot
      have hsize : h.firstRow + k < c.rows.length := by
        have : h.lastRow c ≤ c.size := Nat.min_le_right _ _
        change h.firstRow + k < c.size
        omega
      have hcr : d₁.h.odbcFetcher.chunkRow = h.odbcFetcher.chunkRow + k := by
        obtain ⟨last, diag, hh⟩ := hs
        rw [hh]
        rfl
      have hnat : (d₁.h.odbcFetcher.chunkRow + 1).toNat = h.firstRow + k := by omega
      have hnext : c.rows[(d₁.h.odbcFetcher.chunkRow + 1).toNat]? =
        some c.rows[h.firstRow + k] := by
        rw [hnat, List.getElem?_eq_getElem hsize]
      obtain ⟨ws, hws, hstored⟩ := rowStored_deliverRow hderef hnext hrow
      refine ⟨ws, hws, fun row hget => ?_⟩
      rw [List.getElem?_eq_getElem hsize] at hget
      obtain rfl := Option.some.inj hget
      exact ((sameChunk_ahead h k).trans hs.sameChunk).sameBindings.rowStored hstored)
    (by simpa using SameCursor.refl h) hx
  rw [List.length_range', ← length_rowset] at hlen
  refine ⟨segs, hlen, by simpa using hlog, fun i row ws hrow hws => ?_⟩
  have hi : i < h.lastRow c - h.firstRow := by
    rw [← length_rowset]
    exact (List.getElem?_eq_some_iff.1 hrow).1
  refine hsegs i (h.firstRow + i) ws ?_ hws row ?_
  · rw [List.getElem?_range' hi]
    simp
  · have hin : i < h.rowsetSize := by simp only [lastRow] at hi; omega
    rwa [rowset, List.getElem?_take_of_lt hin, List.getElem?_drop] at hrow

/-! ## The elements of a rowset -/

/-- The stride `ColumnWise` uses is the size of an element : its table of strides misses
`SQL_C_SHORT` and `SQL_C_TINYINT`, for which it takes the length of the buffer. -/
def Strided (b : OdbcBoundCol) : Prop :=
  (b.type = .short → b.len = 2) ∧ (b.type = .tinyint → b.len = 1)

/-- The buffers of a column are as far apart as its elements just for these types and lengths. -/
theorem columnStride_eq_elementSize_iff (b : OdbcBoundCol) :
    columnStride b = elementSize b ↔ Strided b := by
  obtain ⟨type, ptr, len, ind⟩ := b
  cases type <;> simp [columnStride, elementSize, Strided, CType.pointerSizeOf, CType.storedSize]

/-- The rowset behind the cursor in the chunk `c` is stored at the elements of its rows. Both
orientations take the row number in the chunk for the element, but for a single row
column-wise, which is stored at the bound addresses. They give addresses to the later
elements of arrays that are not there, and without a bound column store no status. -/
structure Placed (h : OdbcHandleStmt ρ V) (c : DataChunk ρ) : Prop where
  status : h.rowDesc.ird.arrayStatusPtr = 0 ∨ (h.boundCols ≠ [] ∧ h.firstRow = 0)
  cells : ∀ b ∈ h.boundCols, h.place.takes b = true →
    (h.rowsetSize = 1 ∧ h.rowDesc.ard.bindType = 0) ∨
      (h.firstRow = 0 ∧ ((h.rowset c).length ≤ 1 ∨
        ((b.ptr = 0 → b.len = 0) ∧ b.strlenOrInd ≠ 0 ∧ (h.rowDesc.ard.bindType = 0 → Strided b))))

/-- A fetch delivers no more rows than the rowset has. -/
theorem length_rowset_le (h : OdbcHandleStmt ρ V) (c : DataChunk ρ) :
    (h.rowset c).length ≤ h.rowsetSize := by
  rw [rowset, List.length_take]
  exact Nat.min_le_left _ _

/-- A column taken without a buffer is of variable length. -/
theorem columnStride_of_unbound {h : OdbcHandleStmt ρ V} {b : OdbcBoundCol}
    (htakes : h.place.takes b = true) (hptr : b.ptr = 0) : columnStride b = b.len := by
  have hchar : b.type.isCharType = true := by
    unfold place at htakes
    split at htakes
    · simp only [columnPlace, OdbcBoundCol.isBound, OdbcBoundCol.isVarcharBound, hptr] at htakes
      by_contra hne
      simp [hne] at htakes
    · simp [rowPlace, OdbcBoundCol.isBound, hptr] at htakes
  unfold columnStride
  cases htype : b.type <;> simp_all [CType.isCharType, CType.pointerSizeOf]

/-- The places of a row of the rowset are its elements. -/
theorem Placed.eq_elements {h : OdbcHandleStmt ρ V} {c : DataChunk ρ} (hp : Placed h c) {i : ℕ}
    (hi : i < (h.rowset c).length) {b : OdbcBoundCol} (hb : b ∈ h.boundCols)
    (htakes : h.place.takes b = true) :
    h.place.valAddr b (h.firstRow + i) = h.elements.valAddr b i ∧
      h.place.lenAddr b (h.firstRow + i) = h.elements.lenAddr b i := by
  have hle := length_rowset_le h c
  -- the first element is at the bound address
  have hval₀ : h.elements.valAddr b 0 = b.ptr := by
    simp only [elements]
    split
    · next hptr => exact hptr.symm
    · simp
  have hlen₀ : h.elements.lenAddr b 0 = b.strlenOrInd := by
    simp only [elements]
    split
    · next hind => exact hind.symm
    · simp
  rcases hp.cells b hb htakes with ⟨hone, hcol⟩ | ⟨hfirst, hrest⟩
  · obtain rfl : i = 0 := by omega
    rw [hval₀, hlen₀, place, if_pos hcol]
    simp [columnPlace, hone]
  · rw [hfirst, Nat.zero_add]
    rcases hrest with hshort | ⟨hptr, hind, hstride⟩
    · obtain rfl : i = 0 := by omega
      rw [hval₀, hlen₀, place]
      split
      · simp [columnPlace]
      · simp [rowPlace]
    · have hunbound := columnStride_of_unbound htakes
      have htakes' := htakes
      unfold place at htakes' ⊢
      split
      · next hcol =>
        have hsize := (columnStride_eq_elementSize_iff b).2 (hstride hcol)
        by_cases hone : h.rowsetSize = 1
        · obtain rfl : i = 0 := by omega
          rw [hval₀, hlen₀]
          simp [columnPlace]
        · simp only [columnPlace, elements, hone, if_false, hcol, if_true, hind]
          refine ⟨?_, rfl⟩
          split
          · next h0 => rw [hunbound h0, hptr h0, h0]; simp
          · rw [hsize]
      · next hrow =>
        simp only [rowPlace, hrow, if_false, OdbcBoundCol.isBound] at htakes'
        simp only [rowPlace, elements, hrow, if_false, hind]
        rw [if_neg (by simpa using htakes')]
        exact ⟨by rw [Int.mul_comm], by rw [Int.mul_comm]⟩

theorem Placed.setRowStatus {h : OdbcHandleStmt ρ V} {c : DataChunk ρ} (hp : Placed h c) (i : ℕ)
    (st : RowStatus) : h.setRowStatus (h.firstRow + i) st = h.setRowStatus i st := by
  rcases hp.status with hnone | ⟨-, hfirst⟩
  · simp [OdbcHandleStmt.setRowStatus, hnone]
  · rw [hfirst, Nat.zero_add]

/-- A row of the rowset is stored at its element. -/
theorem Placed.rowStored {E : Engine ρ V} {h : OdbcHandleStmt ρ V} {c : DataChunk ρ}
    (hp : Placed h c)
    {i : ℕ} (hi : i < (h.rowset c).length) {row : ρ} {ws : List Write}
    (hr : RowStored E h h.place (h.firstRow + i) row ws) : RowStored E h h.elements i row ws := by
  obtain ⟨cells, hcount, hws, hcells⟩ := hr
  rw [hp.setRowStatus] at hws
  refine ⟨cells, hcount, hws, fun j cell hcell => ?_⟩
  obtain ⟨b, hb, hc⟩ := hcells j cell hcell
  refine ⟨b, hb, ?_⟩
  unfold CellStored at hc ⊢
  change if h.place.takes b then _ else _
  split at hc
  · next htakes =>
    obtain ⟨hval, hlen⟩ := hp.eq_elements hi (List.mem_of_getElem? hb) htakes
    rw [hval, hlen, hp.setRowStatus] at hc
    rwa [if_pos htakes]
  · next htakes => rwa [if_neg htakes]

/-- The stores of a fetch are the ones of its rows at their elements, one row after the
other, and the number of rows. -/
def StoredAtElements (E : Engine ρ V) (h : OdbcHandleStmt ρ V) (d : Delivery ρ V) : Prop :=
  ∃ (segs : List (List Write)) (count : List Write), segs.length = d.rows.length ∧
    d.writes = segs.flatten ++ count ∧ (∀ w ∈ count, ∃ k, w = .rowsFetched k) ∧
    ∀ (i : ℕ) row ws, d.rows[i]? = some row → segs[i]? = some ws →
      RowStored E h h.elements i row ws

/-- The delivery of a rowset that is placed. -/
theorem Placed.deliver {E : Engine ρ V} {h : OdbcHandleStmt ρ V} {c : DataChunk ρ} (hp : Placed h c)
    (hc : h.odbcFetcher.deref = .ok c) (hlow : -1 ≤ h.odbcFetcher.chunkRow)
    (hpos : 1 ≤ h.rowsetSize)
    {d : Delivery ρ V} (hx : h.deliver E = .ok d) :
    d.rows.length ≤ h.rowsetSize ∧ StoredAtElements E h d := by
  by_cases hb : h.boundCols = []
  · obtain ⟨d', hd', -, hrows, hwrites, -⟩ := deliver_unbound (E := E) hb hc
    obtain rfl : d = d' := Except.ok.inj (hx.symm.trans hd')
    have hone : d.rows.length ≤ 1 := by
      rw [hrows, Option.length_toList]
      split <;> simp
    refine ⟨by omega, List.replicate d.rows.length [], d.writes, by simp, by simp, ?_, ?_⟩
    · rw [hwrites]
      split <;> simp
    · -- no cell, and no status
      intro i row ws _ hws
      obtain rfl : ws = [] := List.eq_of_mem_replicate (List.mem_of_getElem? hws)
      have hnone : h.rowDesc.ird.arrayStatusPtr = 0 := hp.status.resolve_right fun hne => hne.1 hb
      have hcols : h.boundColumns = [] := by
        unfold boundColumns
        split <;> simp [hb]
      exact ⟨[], by rw [hcols]; rfl, by simp [OdbcHandleStmt.setRowStatus, hnone], by simp⟩
  · rw [deliver_of_bound hb] at hx
    obtain ⟨d₁, hd₁, hx⟩ := Outcome.bind_eq_ok.1 hx
    obtain ⟨d₀, n, hd₀, rfl⟩ := bound_cases hd₁
    have hsame : d.rows = d₀.rows ∧ d.writes = (setRowsFetched d₀ n).writes := by
      split at hx
      · cases hx
        exact ⟨setRowsFetched_rows d₀ n, rfl⟩
      · obtain ⟨h₂, -, hx⟩ := Outcome.bind_eq_ok.1 hx
        cases hx
        exact ⟨setRowsFetched_rows d₀ n, rfl⟩
    have hrows : d.rows = h.rowset c := hsame.1.trans (deliverRows_cases hc hlow hd₀).2
    obtain ⟨segs, hlen, hwrites, hsegs⟩ := rowStored_deliverRows hc hlow hd₀
    refine ⟨by rw [hrows]; exact length_rowset_le h c, segs,
      if d₀.h.rowsFetchedPtr ≠ 0 then [.rowsFetched n] else [], by rw [hrows, hlen], ?_, ?_, ?_⟩
    · rw [hsame.2, setRowsFetched, ← hwrites]
      split <;> simp
    · split <;> simp
    · intro i row ws hrow hws
      rw [hrows] at hrow
      exact hp.rowStored (List.getElem?_eq_some_iff.1 hrow).1 (hsegs i row ws hrow hws)

/-! ## The addresses of the stores -/

/-- The data of a cell of the type `t` is stored at the target and not in front of it, for a
type of fixed size with that number of bytes. -/
def IsDataAt (t : CType) (target : Addr) : Write → Prop
  | .data addr bytes => target ≠ 0 ∧ target ≤ addr ∧
      ∀ k, t.storedSize = some k → addr = target ∧ bytes.length = k
  | _ => True

/-- A value of variable length is stored at its target. -/
theorem isDataAt_getVariableValue {h : OdbcHandleStmt ρ V} {colIdx : ℕ} {t : CType} {target : Addr}
    {bufferLength : ℤ} {strLenOrInd : Addr} {val : List UInt8} {charSize : ℕ} {nullTerminate : Bool}
    {got : Got ρ V} (ht : t.storedSize = none)
    (hx : h.getVariableValue colIdx target bufferLength strLenOrInd val charSize nullTerminate =
      .ok got) : ∀ w ∈ got.writes, IsDataAt t target w := by
  unfold getVariableValue at hx
  dsimp only at hx
  repeat' split at hx
  all_goals cases hx
  all_goals simp_all [IsDataAt]

/-- The data of a cell is stored at its target. -/
theorem isDataAt_getDataStmtResult {E : Engine ρ V} {h : OdbcHandleStmt ρ V} {num : ℕ} {t : CType}
    {target : Addr} {bufferLength : ℤ} {strLenOrInd : Addr} {got : Got ρ V}
    (hx : h.getDataStmtResult E num t target bufferLength strLenOrInd = .ok got) :
    ∀ w ∈ got.writes, IsDataAt t target w := by
  unfold getDataStmtResult at hx
  split at hx
  · cases hx
    simp
  · next htarget =>
    obtain ⟨val, -, hx⟩ := Outcome.bind_eq_ok.1 hx
    dsimp only at hx
    split at hx
    · split at hx
      · cases hx
        simp
      · cases hx
        simp [IsDataAt]
    · next v _ =>
      -- the type that the default one stands for
      generalize hres : (if t = .default then
        resolveDefaultType (E.typeId (E.atUtcOffset v)) bufferLength else t) = resolved at hx
      have hfixed : ∀ k, t.storedSize = some k → resolved = t := by
        intro k hk
        have hne : t ≠ .default := by
          rintro rfl
          simp [CType.storedSize] at hk
        rw [← hres, if_neg hne]
      have hnone : resolved.storedSize = none → t.storedSize = none := by
        intro hr
        cases ht : t.storedSize with
        | none => rfl
        | some k => rw [hfixed k ht, ht] at hr; cases hr
      split at hx
      -- a text or a BLOB
      iterate 3
        split at hx
        · exact isDataAt_getVariableValue (hnone rfl) hx
        · cases hx
      · split at hx
        · next size hsize =>
          split at hx
          · next bytes hbytes =>
            cases hx
            have hptr : target ≠ 0 := by
              intro h0
              have hchar : t.isCharType = true := by simpa [h0] using htarget
              have hne : t ≠ .default := by
                rintro rfl
                simp [CType.isCharType] at hchar
              rw [if_neg hne] at hres
              subst hres
              cases t <;> simp_all [CType.isCharType, CType.storedSize]
            have hdata : IsDataAt t target (.data target bytes) := by
              refine ⟨hptr, Int.le_refl _, fun k hk => ⟨rfl, ?_⟩⟩
              rw [hfixed k hk] at hbytes
              exact E.castAs_length hbytes hk
            intro w hw
            rcases List.mem_cons.1 hw with rfl | hw
            · exact hdata
            · split at hw
              · obtain rfl := List.mem_singleton.1 hw
                trivial
              · cases hw
          · cases hx
            simp
          · cases hx
        · cases hx
          simp

/-- A store of a row is its status, or a store of a cell at the places of its column. -/
theorem RowStored.cases_write {E : Engine ρ V} {h : OdbcHandleStmt ρ V}
    {place : CellPlace} {slot : ℕ}
    {row : ρ} {ws : List Write} (hr : RowStored E h place slot row ws) {w : Write} (hw : w ∈ ws) :
    (∃ st, w = .status slot st) ∨
      ∃ b ∈ h.boundCols, IsCellWrite (place.lenAddr b slot) w ∧
      IsDataAt b.type (place.valAddr b slot) w := by
  have hstatus : ∀ {st}, w ∈ h.setRowStatus slot st → ∃ st, w = .status slot st := by
    intro st hw
    unfold setRowStatus at hw
    split at hw
    · exact ⟨st, List.mem_singleton.1 hw⟩
    · cases hw
  obtain ⟨cells, -, rfl, hcells⟩ := hr
  rcases List.mem_append.1 hw with hw | hw
  · exact .inl (hstatus hw)
  · obtain ⟨cell, hcell, hw⟩ := List.mem_flatten.1 hw
    obtain ⟨i, hi⟩ := List.mem_iff_getElem?.1 hcell
    obtain ⟨b, hb, hc⟩ := hcells i cell hi
    unfold CellStored at hc
    split at hc
    · obtain ⟨h₁, got, -, hgot, rfl⟩ := hc
      rcases List.mem_append.1 hw with hw | hw
      · exact .inr ⟨b, List.mem_of_getElem? hb, isCellWrite_getDataStmtResult hgot w hw,
          isDataAt_getDataStmtResult hgot w hw⟩
      · split at hw
        · cases hw
        · exact .inl (hstatus hw)
    · subst hc
      cases hw

/-- A fetch stores the `i`-th row it delivers at the elements `i` of the bound columns, of
their lengths and of the row status array, and nothing elsewhere : every store is at an
element of the rowset, no length is stored through a null pointer, and a value of a C type
of fixed size has the bytes of an element. -/
structure StoresRowset (E : Engine ρ V) (h : OdbcHandleStmt ρ V) (d : Delivery ρ V) : Prop where
  within : d.rows.length ≤ h.rowsetSize
  stored : StoredAtElements E h d
  status : ∀ slot st, .status slot st ∈ d.writes → slot < h.rowsetSize
  indicator : ∀ addr v, .ind addr v ∈ d.writes → ∃ i < h.rowsetSize, ∃ b ∈ h.boundCols,
    b.strlenOrInd ≠ 0 ∧ addr = h.elements.lenAddr b i
  data : ∀ addr bytes, .data addr bytes ∈ d.writes → ∃ i < h.rowsetSize, ∃ b ∈ h.boundCols,
    b.ptr ≠ 0 ∧ h.elements.valAddr b i ≤ addr ∧
      ∀ k, b.type.storedSize = some k → addr = h.elements.valAddr b i ∧ bytes.length = k

theorem StoredAtElements.storesRowset {E : Engine ρ V} {h : OdbcHandleStmt ρ V} {d : Delivery ρ V}
    (hs : StoredAtElements E h d) (hle : d.rows.length ≤ h.rowsetSize) : StoresRowset E h d := by
  -- every store but the number of rows is one of a row
  have hwrite : ∀ w ∈ d.writes, (∀ k, w ≠ .rowsFetched k) → ∃ i < h.rowsetSize,
      (∃ st, w = .status i st) ∨ ∃ b ∈ h.boundCols, IsCellWrite (h.elements.lenAddr b i) w ∧
        IsDataAt b.type (h.elements.valAddr b i) w := by
    intro w hw hne
    obtain ⟨segs, count, hlen, hwrites, hcount, hsegs⟩ := hs
    rw [hwrites] at hw
    rcases List.mem_append.1 hw with hw | hw
    · obtain ⟨ws, hws, hw⟩ := List.mem_flatten.1 hw
      obtain ⟨i, hi⟩ := List.mem_iff_getElem?.1 hws
      have hlt : i < d.rows.length := hlen ▸ (List.getElem?_eq_some_iff.1 hi).1
      exact ⟨i, by omega, (hsegs i _ ws (List.getElem?_eq_getElem hlt) hi).cases_write hw⟩
    · obtain ⟨k, rfl⟩ := hcount w hw
      exact absurd rfl (hne k)
  refine ⟨hle, hs, ?_, ?_, ?_⟩
  · intro slot st hw
    obtain ⟨i, hi, ⟨st', heq⟩ | ⟨b, -, hcell, -⟩⟩ := hwrite _ hw (by simp)
    · cases heq
      exact hi
    · exact hcell.elim
  · intro addr v hw
    obtain ⟨i, hi, ⟨st', heq⟩ | ⟨b, hb, ⟨haddr, hne⟩, -⟩⟩ := hwrite _ hw (by simp)
    · cases heq
    · refine ⟨i, hi, b, hb, fun h0 => hne ?_, haddr⟩
      simp [elements, h0]
  · intro addr bytes hw
    obtain ⟨i, hi, ⟨st', heq⟩ | ⟨b, hb, -, hne, hle, hfixed⟩⟩ := hwrite _ hw (by simp)
    · cases heq
    · refine ⟨i, hi, b, hb, fun h0 => hne ?_, hle, hfixed⟩
      simp [elements, h0]

/-! ## The fetches of a scan -/

/-- The rowset of the next fetch is placed. -/
def FetchPlaced (h : OdbcHandleStmt ρ V) : Prop :=
  ∀ h₁ c, h.fetchNextChunk .next 0 = .ok (.success, h₁) → h₁.odbcFetcher.deref = .ok c → Placed h₁ c

/-- Only a chunk that is there is delivered. -/
theorem deref_of_deliver {E : Engine ρ V} {h : OdbcHandleStmt ρ V} {d : Delivery ρ V}
    (hx : h.deliver E = .ok d) : ∃ c, h.odbcFetcher.deref = .ok c := by
  by_cases hb : h.boundCols = []
  · unfold deliver at hx
    rw [if_pos (by simp [hb])] at hx
    obtain ⟨c, hc, -⟩ := Outcome.bind_eq_ok.1 hx
    exact ⟨c, hc⟩
  · rw [deliver_of_bound hb] at hx
    obtain ⟨d₁, hd₁, -⟩ := Outcome.bind_eq_ok.1 hx
    obtain ⟨d₀, n, hd₀, -⟩ := bound_cases hd₁
    obtain ⟨c, hc, -⟩ := Outcome.bind_eq_ok.1 hd₀
    exact ⟨c, hc⟩

/-- A delivery does not go back in front of the chunk. -/
theorem low_deliver {E : Engine ρ V} {h : OdbcHandleStmt ρ V} {d : Delivery ρ V}
    (hlow : -1 ≤ h.odbcFetcher.chunkRow) (hx : h.deliver E = .ok d) :
    -1 ≤ d.h.odbcFetcher.chunkRow := by
  obtain ⟨c, hc⟩ := deref_of_deliver hx
  by_cases hb : h.boundCols = []
  · obtain ⟨d', hd', -, -, -, hadv, -⟩ := deliver_unbound (E := E) hb hc
    obtain rfl : d = d' := Except.ok.inj (hx.symm.trans hd')
    have := hadv.chunkRow
    omega
  · rw [deliver_of_bound hb] at hx
    obtain ⟨d₁, hd₁, hx⟩ := Outcome.bind_eq_ok.1 hx
    obtain ⟨d₀, n, hd₀, rfl⟩ := bound_cases hd₁
    obtain ⟨⟨last, diag, hh⟩, -⟩ := deliverRows_cases hc hlow hd₀
    have hrow : d.h.odbcFetcher.chunkRow = d₀.h.odbcFetcher.chunkRow := by
      split at hx
      · cases hx
        rw [setRowsFetched_h]
      · obtain ⟨h₂, hcount, hx⟩ := Outcome.bind_eq_ok.1 hx
        obtain ⟨count, rfl⟩ := increaseRowCount_cases hcount
        cases hx
        simp
    rw [hrow, hh]
    simp only [ahead]
    omega

theorem SameBindings.storesRowset {E : Engine ρ V} {h h' : OdbcHandleStmt ρ V}
    (hs : SameBindings h h') {d : Delivery ρ V} (hd : StoresRowset E h' d) :
    StoresRowset E h d := by
  have helements : h'.elements = h.elements := by
    unfold elements
    rw [hs.place, hs.2.2.1]
  have hle := hd.within
  obtain ⟨segs, count, hlen, hwrites, hcount, hsegs⟩ := hd.stored
  rw [hs.rowsetSize] at hle
  rw [helements] at hsegs
  exact StoredAtElements.storesRowset ⟨segs, count, hlen, hwrites, hcount,
    fun i row ws hrow hws => hs.rowStored (hsegs i row ws hrow hws)⟩ hle

/-- One fetch whose rowset is placed. -/
theorem FetchPlaced.storesRowset {E : Engine ρ V} {h : OdbcHandleStmt ρ V} (hp : FetchPlaced h)
    (hlow : -1 ≤ h.odbcFetcher.chunkRow) (hpos : 1 ≤ h.rowsetSize) {d : Delivery ρ V}
    (hx : h.fetchStmtResult E .next 0 = .ok d) :
    StoresRowset E h d ∧ -1 ≤ d.h.odbcFetcher.chunkRow ∧ SameBindings h d.h := by
  -- a fetch that delivers nothing stores nothing
  have hnone : ∀ (h' : OdbcHandleStmt ρ V) ret, StoresRowset E h ⟨ret, h', [], []⟩ := fun h' ret =>
    StoredAtElements.storesRowset ⟨[], [], rfl, rfl, by simp, by simp⟩ (Nat.zero_le _)
  by_cases hopen : h.opened = true
  · cases hmove : h.fetchNextChunk .next 0 with
    | error e => simp [fetchStmtResult, fetch, hopen, hmove, bind, Except.bind] at hx
    | ok p =>
      obtain ⟨ret, h₁⟩ := p
      have hlow₁ := (steps_fetchNextChunk hmove).low hlow
      have hs₁ := (moved_fetchNextChunk hmove).sameBindings
      rw [fetchStmtResult_of_open hopen hmove] at hx
      cases ret with
      | success =>
        have hs := hs₁.trans (sameChunk_deliver hx).sameBindings
        refine ⟨?_, low_deliver hlow₁ hx, hs⟩
        obtain ⟨c, hc⟩ := deref_of_deliver hx
        obtain ⟨hle, hstored⟩ :=
          (hp h₁ c hmove hc).deliver hc hlow₁ (by rw [hs₁.rowsetSize]; exact hpos) hx
        exact hs₁.storesRowset (hstored.storesRowset hle)
      | _ =>
        cases hx
        exact ⟨hnone _ _, hlow₁, hs₁⟩
  · rw [fetchStmtResult, if_pos hopen] at hx
    cases hx
    exact ⟨hnone _ _, hlow, rfl, rfl, rfl, rfl⟩

/-- The first fetch starts in front of the chunk at the earliest. -/
theorem low_fetchFirst {h h' : OdbcHandleStmt ρ V} {ret : SqlReturn}
    (hx : h.fetchFirst = .ok (ret, h')) : -1 ≤ h'.odbcFetcher.chunkRow := by
  obtain ⟨⟨ret₁, h₁⟩, hfirst, hx⟩ := Outcome.bind_eq_ok.1 hx
  cases hx
  unfold fetchNextChunk at hfirst
  rw [if_neg (by simp)] at hfirst
  simp only [setFirstCurrentChunk] at hfirst
  split at hfirst
  · have hlow : -1 ≤ h₁.odbcFetcher.chunkRow := (steps_fetchNext hfirst).low (Int.le_refl _)
    exact hlow
  · cases hfirst
    exact Int.le_refl _

/-- A batch that succeeded leaves the cursor in front of or on a row. -/
theorem low_of_execute {k : ℕ} {a : ExecAnswers ρ V} {h : OdbcHandleStmt ρ V} {x : Executed ρ V}
    (hx : h.batchExecuteStmt k a = some (.ok x)) (hret : x.ret.succeeded) :
    -1 ≤ x.h.odbcFetcher.chunkRow := by
  obtain ⟨y, -, hfinish⟩ := Option.map_eq_some_iff.1 hx
  obtain ⟨⟨ret, b⟩, -, hfinish⟩ := Outcome.bind_eq_ok.1 hfinish
  obtain ⟨-, -, hsucc⟩ := batchFinish_cases hfinish
  change batchFinish ret b.h b.log = .ok x at hfinish
  unfold batchFinish at hfinish
  rw [if_neg (by simpa using hsucc hret)] at hfinish
  obtain ⟨⟨fetchRet, h'⟩, hfirst, hfinish⟩ := Outcome.bind_eq_ok.1 hfinish
  have hlow := low_fetchFirst hfirst
  dsimp only at hfinish
  repeat' split at hfinish
  all_goals first
    | (cases hfinish; exact hlow)
    | cases hfinish

/-- Over a scan of any length whose rowsets are all placed, every fetch stores its rows at
their elements. -/
theorem scan_storesRowset (E : Engine ρ V) {k : ℕ} {a : ExecAnswers ρ V}
    {h h' h'' : OdbcHandleStmt ρ V}
    {x : Executed ρ V} (hx : h.batchExecuteStmt k a = some (.ok x)) (hret : x.ret.succeeded)
    (hbound : Rebound x.h h') (hpos : 1 ≤ h'.rowsetSize) {m : ℕ} {ds : List (Delivery ρ V)}
    (hplaced : Run.Along (fun h i h₁ => ∃ d, scanStep E h i = .ok (d, h₁))
    (fun h _ => FetchPlaced h)
      h' (List.replicate m ()))
    (hscan : h'.scan E m = .ok (ds, h'')) : ∀ d ∈ ds, StoresRowset E h' d := by
  have hlow : -1 ≤ h'.odbcFetcher.chunkRow := by
    obtain ⟨bound, desc, ptr, type, diag, rfl⟩ := hbound
    exact low_of_execute hx hret
  refine Run.forall_mem_outputs
    (fun h₁ => -1 ≤ h₁.odbcFetcher.chunkRow ∧ SameBindings h' h₁) (fun h _ => FetchPlaced h)
    (StoresRowset E h') ?_ ⟨hlow, rfl, rfl, rfl, rfl⟩ hplaced hscan
  rintro h₁ i d h₂ ⟨hlow₁, hs₁⟩ hp hstep
  obtain ⟨d', hd', heq⟩ := Outcome.map_eq_ok.1 hstep
  obtain ⟨rfl, rfl⟩ := Prod.mk.inj heq
  obtain ⟨hstores, hlow₂, hs₂⟩ := hp.storesRowset hlow₁ (by rw [hs₁.rowsetSize]; exact hpos) hd'
  exact ⟨hs₁.storesRowset hstores, hlow₂, hs₁.trans hs₂⟩

/-- A chunk that becomes the current one is read from its first row. -/
theorem firstRow_fetchNext {h h' : OdbcHandleStmt ρ V} (hx : h.fetchNext = .ok (.success, h')) :
    h'.firstRow = 0 := by
  have hset : ∀ {h₁ : OdbcHandleStmt ρ V}, h₁.setCurrentChunk = (.success, h') →
    h'.firstRow = 0 := by
    intro h₁ hset
    by_cases he : h₁.odbcFetcher.chunks = []
    · rw [setCurrentChunk_of_empty he] at hset
      cases hset
    · obtain ⟨idx, c, -, hseat⟩ := setCurrentChunk_of_ne he
      rw [hseat] at hset
      cases hset
      rfl
  unfold fetchNext at hx
  repeat' split at hx
  · exact hset (Except.ok.inj hx)
  · cases hx
  · cases hx
  · cases hx
  · exact hset (Except.ok.inj hx)

/-- Both arrays of the bound columns are there, with the stride of their type. -/
def ArraysBound (h : OdbcHandleStmt ρ V) : Prop :=
  h.boundCols ≠ [] ∧ ∀ b ∈ h.boundCols, b.ptr ≠ 0 ∧ b.strlenOrInd ≠ 0 ∧ Strided b

/-- The rowset at the start of a chunk is placed. -/
theorem fetchPlaced_of_front {h : OdbcHandleStmt ρ V} (hb : ArraysBound h)
    (hfront : h.firstRow = 0 ∨ h.odbcFetcher.requireFetch = true) : FetchPlaced h := by
  intro h₁ c hmove _
  have hs := (moved_fetchNextChunk hmove).sameBindings
  have hfirst : h₁.firstRow = 0 := by
    rw [fetchNextChunk_next] at hmove
    split at hmove
    · split at hmove
      · cases hmove
      · exact firstRow_fetchNext hmove
    · next hreq =>
      cases hmove
      exact hfront.resolve_right hreq
  refine ⟨.inr ⟨by rw [hs.2.1]; exact hb.1, hfirst⟩, fun b hmem _ => .inr ⟨hfirst, .inr ?_⟩⟩
  obtain ⟨hptr, hind, hstride⟩ := hb.2 b (hs.2.1 ▸ hmem)
  exact ⟨fun h0 => absurd h0 hptr, hind, fun _ => hstride⟩

/-- The bytes of the scan above on the row `row` of the chunk `b`, the first of two. -/
def onFirstBytes (row prior count : ℤ) (b b' : Block ℕ) : OdbcHandleStmt ℕ ℕ :=
  { preparedBytes with
    opened := true
    res := some { queryResult 1 [b'] with fetched := 1 }
    odbcFetcher := ⟨.forwardOnly, count, ⟨-1, -1, 0⟩, [⟨0, 1, b⟩], 0, some ⟨0, 1, b⟩, row,
      prior, false⟩ }

theorem onFirstBytes_arraysBound (row prior count : ℤ) (b b' : Block ℕ) :
    ArraysBound (onFirstBytes row prior count b b') := by
  refine ⟨List.cons_ne_nil _ _, fun c hc => ?_⟩
  obtain rfl := List.mem_singleton.1 hc
  exact ⟨by decide, by decide, nofun, nofun⟩

/-- Two rows a rowset, and chunks of two rows and one row. -/
theorem scan_storesRowset_bytes :
    ∃ x, preparedBytes.batchExecuteStmt 1 (select 1 [⟨[1, 2], by simp⟩, ⟨[3], by simp⟩]).exec =
        some (.ok x) ∧
      ∃ ds h, x.h.scan byteEngine 2 = .ok (ds, h) ∧ ds.map Delivery.rows = [[1, 2], [3]] ∧
        ∀ d ∈ ds, StoresRowset byteEngine x.h d := by
  obtain ⟨x, hrun, hret, hh⟩ : ∃ x, preparedBytes.batchExecuteStmt 1
      (select 1 [⟨[1, 2], by simp⟩, ⟨[3], by simp⟩]).exec = some (.ok x) ∧ x.ret.succeeded = true ∧
      x.h = onFirstBytes (-1) (-1) 0 ⟨[1, 2], by simp⟩ ⟨[3], by simp⟩ := ⟨_, rfl, rfl, rfl⟩
  obtain ⟨ds, h, hscan, hrows⟩ : ∃ ds h, x.h.scan byteEngine 2 = .ok (ds, h) ∧
      ds.map Delivery.rows = [[1, 2], [3]] := by
    rw [hh]
    exact ⟨_, _, rfl, rfl⟩
  refine ⟨x, hrun, ds, h, hscan, hrows, ?_⟩
  refine scan_storesRowset byteEngine hrun hret (.refl _) (by rw [hh]; decide) ?_ hscan
  rw [hh]
  refine And.intro (fetchPlaced_of_front (onFirstBytes_arraysBound _ _ _ _ _) (.inl rfl)) ?_
  rintro t ⟨d, ht⟩
  have hstep : scanStep byteEngine (onFirstBytes (-1) (-1) 0 ⟨[1, 2], by simp⟩ ⟨[3], by simp⟩) () =
      .ok (_, onFirstBytes 1 (-1) 1 ⟨[1, 2], by simp⟩ ⟨[3], by simp⟩) := rfl
  obtain ⟨-, rfl⟩ := Prod.mk.inj (Except.ok.inj (hstep.symm.trans ht))
  exact And.intro (fetchPlaced_of_front (onFirstBytes_arraysBound _ _ _ _ _) (.inr rfl))
    fun _ _ => trivial

/-- Two rows a rowset, and a chunk of three rows : the second fetch stores the length of the
third row in the third element of an array of two. -/
theorem third_element_written :
    ∃ x, preparedBytes.batchExecuteStmt 1 (select 1 [⟨[1, 2, 3], by simp⟩]).exec = some (.ok x) ∧
      ∃ ds h, x.h.scan byteEngine 2 = .ok (ds, h) ∧ ∃ d ∈ ds, ¬StoresRowset byteEngine x.h d := by
  refine ⟨_, rfl, _, _, rfl, _, List.mem_cons_of_mem _ (List.mem_singleton_self _), fun hs => ?_⟩
  obtain ⟨i, hi, b, hb, -, haddr⟩ := hs.indicator 216 1 (by decide)
  obtain rfl := List.mem_singleton.1 hb
  change i < 2 at hi
  change (216 : ℤ) = 200 + i * 8 at haddr
  omega

end OdbcHandleStmt

end HaybarnOdbc
