import HaybarnOdbc.Cursor
import HaybarnOdbc.GetData

/-!
# Fetching a rowset

`OdbcFetch::Fetch` moves the cursor and then fills the bound columns, `ColumnWise` or
`RowWise`, from the rows of the current chunk that follow it. The two orientations share
the loops over rows and columns; they differ in where a cell goes and in which columns
they take (`CellPlace`).

`Delivery.rows` are the rows a fetch handed to the bound columns, in order, or the row it
left the cursor on where no column is bound.
-/

namespace HaybarnOdbc

variable {ρ V : Type}

namespace OdbcHandleStmt

/-- The outcome of a fetch. -/
structure Delivery (ρ V : Type) where
  ret : SqlReturn
  h : OdbcHandleStmt ρ V
  rows : List ρ
  writes : List Write

/-- `SetRowStatus`. -/
def setRowStatus (h : OdbcHandleStmt ρ V) (rowIdx : ℕ) (st : RowStatus) : List Write :=
  if h.rowDesc.ird.arrayStatusPtr ≠ 0 then [.status rowIdx st] else []

/-- `IncreaseRowCount`. -/
def increaseRowCount (h : OdbcHandleStmt ρ V) : Except Fault (OdbcHandleStmt ρ V) := do
  let c ← h.odbcFetcher.deref
  let f := h.odbcFetcher
  if f.chunkRow + h.rowsetSize < c.size then
    return { h with odbcFetcher.rowCount := f.rowCount + h.rowsetSize }
  else return { h with odbcFetcher.rowCount := f.rowCount + (c.size - f.chunkRow) }

/-- `hstmt->stmt->ColumnCount()`. -/
def columnCount (h : OdbcHandleStmt ρ V) : Except Fault ℕ :=
  match h.stmt with
  | none => .error .nullStmt
  | some stmt => if stmt.error.isSome then .error .nullData else .ok stmt.columnCount

/-- Which bound columns an orientation takes, and the addresses it gives to the value and
the length of row `rowIdx` of a column. -/
structure CellPlace where
  takes : OdbcBoundCol → Bool
  valAddr : OdbcBoundCol → ℕ → Addr
  lenAddr : OdbcBoundCol → ℕ → Addr

/-- The stride of a column-wise array. -/
def columnStride (c : OdbcBoundCol) : ℤ :=
  if c.type.pointerSizeOf < 0 then c.len else c.type.pointerSizeOf

/-- The places of `ColumnWise`. A rowset of one row is stored at the bound addresses. -/
def columnPlace (h : OdbcHandleStmt ρ V) : CellPlace where
  takes c := c.isBound || c.isVarcharBound
  valAddr c rowIdx := if h.rowsetSize = 1 then c.ptr else c.ptr + rowIdx * columnStride c
  lenAddr c rowIdx := if h.rowsetSize = 1 then c.strlenOrInd else c.strlenOrInd + rowIdx * 8

/-- The places of `RowWise`. -/
def rowPlace (h : OdbcHandleStmt ρ V) : CellPlace where
  takes c := c.isBound
  valAddr c rowIdx := c.ptr + h.rowDesc.ard.bindType * rowIdx
  lenAddr c rowIdx := c.strlenOrInd + h.rowDesc.ard.bindType * rowIdx

/-- One turn of the loop over columns. -/
def deliverCell (E : Engine ρ V) (place : CellPlace) (rowIdx : ℕ) (d : Delivery ρ V)
    (colIdx : ℕ) : Except Fault (Delivery ρ V) :=
  match d.h.boundCols[colIdx]? with
  | none => .error .outOfRange
  | some c =>
    if place.takes c then do
      let got ← d.h.getDataStmtResult E (colIdx + 1) c.type (place.valAddr c rowIdx) c.len
        (place.lenAddr c rowIdx)
      let st := if got.ret.succeeded then [] else got.h.setRowStatus rowIdx .error
      return { d with ret := got.ret, h := got.h, writes := d.writes ++ got.writes ++ st }
    else .ok d

/-- One turn of the loop over rows, over the columns of the statement. -/
def deliverRow (E : Engine ρ V) (place : CellPlace) (d : Delivery ρ V) (rowIdx : ℕ) :
    Except Fault (Delivery ρ V) := do
  let c ← d.h.odbcFetcher.deref
  let h := { d.h with odbcFetcher.chunkRow := d.h.odbcFetcher.chunkRow + 1 }
  let columnCount ← h.columnCount
  (List.range columnCount).foldlM (deliverCell E place rowIdx)
    { d with
      h := h
      rows := d.rows ++ (c.rows[h.odbcFetcher.chunkRow.toNat]?).toList
      writes := d.writes ++ h.setRowStatus rowIdx .success }

/-- `first_row_to_fetch`. -/
def firstRow (h : OdbcHandleStmt ρ V) : ℕ := (h.odbcFetcher.chunkRow + 1).toNat

/-- `last_row_to_fetch`, clipped to the current chunk `c`. -/
def lastRow (h : OdbcHandleStmt ρ V) (c : DataChunk ρ) : ℕ :=
  min (h.firstRow + h.rowsetSize) c.size

/-- The loop over the rows of a rowset. -/
def deliverRows (E : Engine ρ V) (place : CellPlace) (h : OdbcHandleStmt ρ V) :
    Except Fault (Delivery ρ V) := do
  let c ← h.odbcFetcher.deref
  (List.range' h.firstRow (h.lastRow c - h.firstRow)).foldlM (deliverRow E place)
    ⟨.success, h, [], []⟩

/-- Store the number of rows fetched, if the application asked for it. -/
def setRowsFetched (d : Delivery ρ V) (n : ℕ) : Delivery ρ V :=
  if d.h.rowsFetchedPtr ≠ 0 then { d with writes := d.writes ++ [.rowsFetched n] } else d

/-- `ColumnWise`. -/
def columnWise (E : Engine ρ V) (h : OdbcHandleStmt ρ V) : Except Fault (Delivery ρ V) := do
  let c ← h.odbcFetcher.deref
  let d ← h.deliverRows E h.columnPlace
  return setRowsFetched d (sizeT (h.lastRow c - h.firstRow))

/-- `RowWise`. -/
def rowWise (E : Engine ρ V) (h : OdbcHandleStmt ρ V) : Except Fault (Delivery ρ V) := do
  let c ← h.odbcFetcher.deref
  let d ← h.deliverRows E h.rowPlace
  return setRowsFetched d (h.lastRow c - h.firstRow)

/-- The branch of `Fetch` for a statement without a bound column. -/
def fetchUnbound (h : OdbcHandleStmt ρ V) : Except Fault (Delivery ρ V) := do
  let h := { h with odbcFetcher.chunkRow := h.odbcFetcher.chunkRow + h.rowsetSize }
  let c ← h.odbcFetcher.deref
  let h ← h.increaseRowCount
  return setRowsFetched
    ⟨.success, h, (c.rows[h.odbcFetcher.chunkRow.toNat]?).toList, []⟩ 1

/-- Fill the bound columns, or only move the cursor where there are none. -/
def deliver (E : Engine ρ V) (h : OdbcHandleStmt ρ V) : Except Fault (Delivery ρ V) :=
  if h.boundCols.isEmpty then h.fetchUnbound
  else do
    let d ← if h.rowDesc.ard.bindType = 0 then h.columnWise E else h.rowWise E
    if ¬d.ret.succeeded then .ok d
    else do
      let h ← d.h.increaseRowCount
      return { d with h := h }

/-- `OdbcFetch::Fetch`. -/
def fetch (E : Engine ρ V) (h : OdbcHandleStmt ρ V) (orientation : FetchOrientation)
    (fetchOffset : ℤ) : Except Fault (Delivery ρ V) := do
  let (ret, h) ← h.fetchNextChunk orientation fetchOffset
  match ret with
  | .success => h.deliver E
  | .fetchBeforeStart => .ok ⟨.success, h, [], []⟩
  | ret => .ok ⟨ret, h, [], []⟩

/-- `FetchStmtResult`. -/
def fetchStmtResult (E : Engine ρ V) (h : OdbcHandleStmt ρ V) (orientation : FetchOrientation)
    (fetchOffset : ℤ) : Except Fault (Delivery ρ V) :=
  if ¬h.opened then .ok ⟨.noData, h, [], []⟩ else h.fetch E orientation fetchOffset

/-! ## What a delivery does -/

/-- A cell that is delivered leaves the cursor where it is. -/
theorem deliverCell_cases {E : Engine ρ V} {place : CellPlace} {rowIdx : ℕ} {d d' : Delivery ρ V}
    {colIdx : ℕ} (hx : deliverCell E place rowIdx d colIdx = .ok d') :
    SameCursor d.h d'.h ∧ d'.rows = d.rows := by
  unfold deliverCell at hx
  split at hx
  · cases hx
  · split at hx
    · obtain ⟨got, hgot, hx⟩ := Outcome.bind_eq_ok.1 hx
      cases hx
      exact ⟨sameCursor_getDataStmtResult hgot, rfl⟩
    · cases hx
      exact ⟨.refl _, rfl⟩

/-- `h` with its cursor on the row `k` rows further. -/
def ahead (h : OdbcHandleStmt ρ V) (k : ℕ) : OdbcHandleStmt ρ V :=
  { h with odbcFetcher.chunkRow := h.odbcFetcher.chunkRow + k }

@[simp] theorem ahead_zero (h : OdbcHandleStmt ρ V) : h.ahead 0 = h := by
  simp [ahead]

/-- Two moves are one. -/
theorem ahead_ahead (h : OdbcHandleStmt ρ V) (j k : ℕ) : (h.ahead j).ahead k = h.ahead (j + k) := by
  simp [ahead, Int.add_assoc]

theorem SameCursor.ahead {h h' : OdbcHandleStmt ρ V} (hh : SameCursor h h') (k : ℕ) :
    SameCursor (h.ahead k) (h'.ahead k) := by
  obtain ⟨last, diag, rfl⟩ := hh
  exact ⟨last, diag, rfl⟩

/-- The same cursor is on the same chunk. -/
theorem SameCursor.deref {h h' : OdbcHandleStmt ρ V} (hh : SameCursor h h') :
    h'.odbcFetcher.deref = h.odbcFetcher.deref := by
  obtain ⟨last, diag, rfl⟩ := hh
  rfl

/-- A row is the one behind the cursor, which moves onto it. -/
theorem deliverRow_cases {E : Engine ρ V} {place : CellPlace} {rowIdx : ℕ} {d d' : Delivery ρ V}
    {c : DataChunk ρ} (hc : d.h.odbcFetcher.deref = .ok c)
    (hx : deliverRow E place d rowIdx = .ok d') :
    SameCursor (d.h.ahead 1) d'.h ∧
      d'.rows = d.rows ++ (c.rows[(d.h.odbcFetcher.chunkRow + 1).toNat]?).toList := by
  unfold deliverRow at hx
  obtain ⟨c₁, hc₁, hx⟩ := Outcome.bind_eq_ok.1 hx
  obtain rfl : c = c₁ := Except.ok.inj (hc.symm.trans hc₁)
  obtain ⟨count, -, hx⟩ := Outcome.bind_eq_ok.1 hx
  refine Outcome.foldlM_invariant (fun d' : Delivery ρ V => SameCursor (d.h.ahead 1) d'.h ∧
    d'.rows = d.rows ++ (c.rows[(d.h.odbcFetcher.chunkRow + 1).toNat]?).toList) ?_ ?_ hx
  · rintro d₁ col d₂ - ⟨hcur, hrows⟩ hcell
    obtain ⟨hcur', hrows'⟩ := deliverCell_cases hcell
    exact ⟨hcur.trans hcur', hrows'.trans hrows⟩
  · exact ⟨.refl _, rfl⟩

/-- A rowset is the rows of the chunk behind the cursor, as many as it asks for and the
chunk has. -/
theorem deliverRows_cases {E : Engine ρ V} {place : CellPlace} {h : OdbcHandleStmt ρ V}
    {c : DataChunk ρ} (hc : h.odbcFetcher.deref = .ok c) (hrow : -1 ≤ h.odbcFetcher.chunkRow)
    {d : Delivery ρ V} (hx : h.deliverRows E place = .ok d) :
    SameCursor (h.ahead (h.lastRow c - h.firstRow)) d.h ∧
      d.rows = (c.rows.drop h.firstRow).take h.rowsetSize := by
  unfold deliverRows at hx
  obtain ⟨c₁, hc₁, hx⟩ := Outcome.bind_eq_ok.1 hx
  obtain rfl : c = c₁ := Except.ok.inj (hc.symm.trans hc₁)
  have hfirst : (h.firstRow : ℤ) = h.odbcFetcher.chunkRow + 1 := by
    simp only [firstRow]
    omega
  -- after `k` turns, the cursor is `k` rows ahead
  suffices hrun : ∀ m start (d₀ d : Delivery ρ V), start + m ≤ c.size → ∀ k,
    start = h.firstRow + k →
      SameCursor (h.ahead k) d₀.h → d₀.rows = (c.rows.drop h.firstRow).take k →
      (List.range' start m).foldlM (deliverRow E place) d₀ = .ok d →
      SameCursor (h.ahead (k + m)) d.h ∧ d.rows = (c.rows.drop h.firstRow).take (k + m) by
    have hlen : (c.rows.drop h.firstRow).take (h.lastRow c - h.firstRow) =
        (c.rows.drop h.firstRow).take h.rowsetSize := by
      have hsize : (c.rows.drop h.firstRow).length = c.size - h.firstRow := List.length_drop
      rcases Nat.lt_or_ge h.rowsetSize (c.size - h.firstRow) with hlt | hge
      · congr 1
        simp only [lastRow]
        omega
      · have hclip : (c.rows.drop h.firstRow).length ≤ h.lastRow c - h.firstRow := by
          simp only [lastRow]
          omega
        rw [List.take_of_length_le hclip, List.take_of_length_le (by omega)]
    rw [← hlen]
    by_cases hle : h.firstRow ≤ c.size
    · have := hrun (h.lastRow c - h.firstRow) h.firstRow ⟨.success, h, [], []⟩ d
        (by simp only [lastRow]; omega) 0 rfl (by simpa using SameCursor.refl h) (by simp) hx
      simpa using this
    · have hzero : h.lastRow c - h.firstRow = 0 := by simp only [lastRow]; omega
      rw [hzero] at hx ⊢
      cases hx
      exact ⟨by simpa using SameCursor.refl h, by simp⟩
  intro m
  induction m with
  | zero =>
    rintro start d₀ d - k - hcur hrows hx
    cases hx
    exact ⟨hcur, hrows⟩
  | succ m ih =>
    intro start d₀ d hle k hstart hcur hrows hx
    rw [List.range'_succ, List.foldlM_cons] at hx
    obtain ⟨d₁, h₁, hx⟩ := Outcome.bind_eq_ok.1 hx
    have hderef : d₀.h.odbcFetcher.deref = .ok c := by rw [hcur.deref]; exact hc
    obtain ⟨hcur₁, hrows₁⟩ := deliverRow_cases hderef h₁
    have hcur' : SameCursor (h.ahead (k + 1)) d₁.h := by
      rw [← ahead_ahead]
      exact (hcur.ahead 1).trans hcur₁
    have hrow₀ : d₀.h.odbcFetcher.chunkRow = h.odbcFetcher.chunkRow + k := by
      obtain ⟨last, diag, heq⟩ := hcur
      rw [heq]
      rfl
    have hrows' : d₁.rows = (c.rows.drop h.firstRow).take (k + 1) := by
      rw [hrows₁, hrows, hrow₀, List.take_add_one, List.getElem?_drop]
      congr 3
      omega
    have := ih (start + 1) d₁ d (by omega) (k + 1) (by omega) hcur' hrows' hx
    rwa [Nat.add_assoc, Nat.add_comm 1] at this

/-- A delivery moves the cursor within its chunk, counts rows, and reads cells. -/
def SameChunk (h h' : OdbcHandleStmt ρ V) : Prop :=
  ∃ row count last diag, h' =
    { h with
      odbcFetcher :=
        { h.odbcFetcher with chunkRow := row, rowCount := count, lastFetched := last },
      diag := diag }

theorem SameChunk.refl (h : OdbcHandleStmt ρ V) : SameChunk h h :=
  ⟨h.odbcFetcher.chunkRow, h.odbcFetcher.rowCount, h.odbcFetcher.lastFetched, h.diag, rfl⟩

theorem SameChunk.trans {h₁ h₂ h₃ : OdbcHandleStmt ρ V} (h₁₂ : SameChunk h₁ h₂)
    (h₂₃ : SameChunk h₂ h₃) : SameChunk h₁ h₃ := by
  obtain ⟨row, count, last, diag, rfl⟩ := h₁₂
  obtain ⟨row', count', last', diag', rfl⟩ := h₂₃
  exact ⟨row', count', last', diag', rfl⟩

theorem SameCursor.sameChunk {h h' : OdbcHandleStmt ρ V} (hh : SameCursor h h') :
    SameChunk h h' := by
  obtain ⟨last, diag, rfl⟩ := hh
  exact ⟨_, _, last, diag, rfl⟩

theorem sameChunk_ahead (h : OdbcHandleStmt ρ V) (k : ℕ) : SameChunk h (h.ahead k) :=
  ⟨_, _, _, _, rfl⟩

/-- Delivering rows stays on the chunk. -/
theorem sameChunk_deliverRows {E : Engine ρ V} {place : CellPlace} {h : OdbcHandleStmt ρ V}
    {d : Delivery ρ V} (hx : h.deliverRows E place = .ok d) : SameChunk h d.h := by
  obtain ⟨c, hc, hx⟩ := Outcome.bind_eq_ok.1 hx
  refine Outcome.foldlM_invariant (fun d : Delivery ρ V => SameChunk h d.h) ?_ (.refl h) hx
  rintro d₁ rowIdx d₂ - hd₁ hrow
  obtain ⟨c₁, hc₁, -⟩ := Outcome.bind_eq_ok.1 hrow
  have hnext := (deliverRow_cases hc₁ hrow).1
  exact hd₁.trans ((sameChunk_ahead d₁.h 1).trans hnext.sameChunk)

@[simp] theorem setRowsFetched_h (d : Delivery ρ V) (n : ℕ) : (setRowsFetched d n).h = d.h := by
  unfold setRowsFetched
  split <;> rfl

@[simp] theorem setRowsFetched_rows (d : Delivery ρ V) (n : ℕ) :
    (setRowsFetched d n).rows = d.rows := by
  unfold setRowsFetched
  split <;> rfl

@[simp] theorem setRowsFetched_ret (d : Delivery ρ V) (n : ℕ) :
    (setRowsFetched d n).ret = d.ret := by
  unfold setRowsFetched
  split <;> rfl

/-- `IncreaseRowCount` changes the row count only. -/
theorem increaseRowCount_cases {h h' : OdbcHandleStmt ρ V} (hx : h.increaseRowCount = .ok h') :
    ∃ count, h' = { h with odbcFetcher.rowCount := count } := by
  obtain ⟨c, -, hx⟩ := Outcome.bind_eq_ok.1 hx
  dsimp only at hx
  split at hx
  · cases hx
    exact ⟨_, rfl⟩
  · cases hx
    exact ⟨_, rfl⟩

/-- So does counting them. -/
theorem sameChunk_increaseRowCount {h h' : OdbcHandleStmt ρ V} (hx : h.increaseRowCount = .ok h') :
    SameChunk h h' := by
  obtain ⟨count, rfl⟩ := increaseRowCount_cases hx
  exact ⟨_, _, _, _, rfl⟩

/-- The two orientations of a bound delivery. -/
def bound (E : Engine ρ V) (h : OdbcHandleStmt ρ V) : Except Fault (Delivery ρ V) :=
  if h.rowDesc.ard.bindType = 0 then h.columnWise E else h.rowWise E

/-- Both are the loop over the rows, at their places, and the number of rows fetched. -/
theorem bound_cases {E : Engine ρ V} {h : OdbcHandleStmt ρ V} {d : Delivery ρ V}
    (hx : h.bound E = .ok d) :
    ∃ d₀ n, h.deliverRows E (if h.rowDesc.ard.bindType = 0 then h.columnPlace else h.rowPlace) =
      .ok d₀ ∧ d = setRowsFetched d₀ n := by
  unfold bound at hx
  split at hx
  · next hcol =>
    obtain ⟨c, -, hx⟩ := Outcome.bind_eq_ok.1 hx
    obtain ⟨d₀, hd₀, hx⟩ := Outcome.bind_eq_ok.1 hx
    cases hx
    exact ⟨d₀, _, by rw [if_pos hcol]; exact hd₀, rfl⟩
  · next hrow =>
    obtain ⟨c, -, hx⟩ := Outcome.bind_eq_ok.1 hx
    obtain ⟨d₀, hd₀, hx⟩ := Outcome.bind_eq_ok.1 hx
    cases hx
    exact ⟨d₀, _, by rw [if_neg hrow]; exact hd₀, rfl⟩

/-- What `Fetch` does once the cursor has moved : a bound delivery, and the row count if it
succeeded. -/
theorem deliver_of_bound {E : Engine ρ V} {h : OdbcHandleStmt ρ V} (hb : h.boundCols ≠ []) :
    h.deliver E = h.bound E >>= fun d =>
      if ¬d.ret.succeeded then .ok d else d.h.increaseRowCount >>= fun h =>
      .ok { d with h := h } := by
  unfold deliver
  rw [if_neg (by simpa using hb)]
  unfold bound
  split <;> rfl

/-- So does a delivery. -/
theorem sameChunk_deliver {E : Engine ρ V} {h : OdbcHandleStmt ρ V} {d : Delivery ρ V}
    (hx : h.deliver E = .ok d) : SameChunk h d.h := by
  by_cases hb : h.boundCols = []
  · unfold deliver at hx
    rw [if_pos (by simp [hb])] at hx
    obtain ⟨c, -, hx⟩ := Outcome.bind_eq_ok.1 hx
    obtain ⟨h₁, hcount, hx⟩ := Outcome.bind_eq_ok.1 hx
    cases hx
    rw [setRowsFetched_h]
    exact SameChunk.trans ⟨_, _, _, _, rfl⟩ (sameChunk_increaseRowCount hcount)
  · rw [deliver_of_bound hb] at hx
    obtain ⟨d₁, hd₁, hx⟩ := Outcome.bind_eq_ok.1 hx
    obtain ⟨d₀, n, hd₀, rfl⟩ := bound_cases hd₁
    have hsame : SameChunk h (setRowsFetched d₀ n).h := by
      rw [setRowsFetched_h]
      exact sameChunk_deliverRows hd₀
    split at hx
    · cases hx
      exact hsame
    · obtain ⟨h₂, hcount, hx⟩ := Outcome.bind_eq_ok.1 hx
      cases hx
      exact hsame.trans (sameChunk_increaseRowCount hcount)

/-- What the steps of the cursor and a delivery keep, `FetchStmtResult` keeps. -/
theorem fetchStmtResult_invariant {E : Engine ρ V} {P : OdbcHandleStmt ρ V → Prop}
    (hstep : ∀ {h h' : OdbcHandleStmt ρ V}, P h → CursorStep h h' → P h')
    (hdeliver : ∀ {h : OdbcHandleStmt ρ V} {d}, P h → h.deliver E = .ok d → P d.h)
    {h : OdbcHandleStmt ρ V} (hp : P h) {o : FetchOrientation} {off : ℤ} {d : Delivery ρ V}
    (hx : h.fetchStmtResult E o off = .ok d) : P d.h := by
  unfold fetchStmtResult at hx
  split at hx
  · cases hx
    exact hp
  · obtain ⟨⟨ret, h₁⟩, hmove, hx⟩ := Outcome.bind_eq_ok.1 hx
    have hp₁ : P h₁ := (steps_fetchNextChunk hmove).invariant hstep hp
    dsimp only at hx
    split at hx
    · exact hdeliver hp₁ hx
    · cases hx
      exact hp₁
    · cases hx
      exact hp₁

/-! ## Cells that convert -/

/-- Reading the cell of column `i` in `row` into the bound column `c` succeeds, at the given
addresses and from its first byte. -/
def Converts (E : Engine ρ V) (c : OdbcBoundCol) (i : ℕ) (row : ρ)
    (valAddr lenAddr : Addr) : Prop :=
  ∀ h : OdbcHandleStmt ρ V, h.getValue E i = .ok (some (E.getValue row i)) → h.FreshOffset i →
    ∃ got, h.getDataStmtResult E (i + 1) c.type valAddr c.len lenAddr = .ok got ∧
      got.ret.succeeded = true

/-- All bound cells of `row` convert, where it is row `rowIdx` of its chunk. -/
def RowConverts (E : Engine ρ V) (cols : List OdbcBoundCol) (place : CellPlace) (rowIdx : ℕ)
    (row : ρ) : Prop :=
  ∀ i c, cols[i]? = some c → place.takes c = true →
    Converts E c i row (place.valAddr c rowIdx) (place.lenAddr c rowIdx)

/-- In the current row nothing was read of the columns from `i` on. -/
def ReadBefore (h : OdbcHandleStmt ρ V) (i : ℕ) : Prop :=
  h.odbcFetcher.lastFetched.length = 0 ∨
    h.odbcFetcher.lastFetched.rowIdx ≠ h.odbcFetcher.chunkRow ∨
    (h.odbcFetcher.lastFetched.rowIdx = h.odbcFetcher.chunkRow ∧
      h.odbcFetcher.lastFetched.colIdx < i)

/-- What was read of earlier columns leaves the offset of this one fresh. -/
theorem ReadBefore.freshOffset {h : OdbcHandleStmt ρ V} {i : ℕ} (hr : h.ReadBefore i) :
    h.FreshOffset i := by
  unfold FreshOffset setLastFetchedVariableVal
  dsimp only
  rcases hr with hlen | hrow | ⟨-, hcol⟩
  · split
    · rfl
    · exact hlen
  · rw [if_pos (by omega)]
  · rw [if_pos (by omega)]

theorem ReadBefore.mono {h : OdbcHandleStmt ρ V} {i : ℕ} (hr : h.ReadBefore i) :
    h.ReadBefore (i + 1) := by
  rcases hr with hlen | hrow | ⟨hrow, hcol⟩
  · exact .inl hlen
  · exact .inr (.inl hrow)
  · exact .inr (.inr ⟨hrow, by omega⟩)

/-- The cell that was read last is still the one of `h`, or one of the current row. -/
def ReadCell (h h' : OdbcHandleStmt ρ V) : Prop :=
  h'.odbcFetcher.lastFetched = h.odbcFetcher.lastFetched ∨
    h'.odbcFetcher.lastFetched.rowIdx = h'.odbcFetcher.chunkRow

/-- What a cell that converts does to a delivery. -/
theorem deliverCell_ok {E : Engine ρ V} {place : CellPlace} {rowIdx i : ℕ} {d : Delivery ρ V}
    {row : ρ} (hi : i < d.h.boundCols.length)
    (hrow : d.h.getValue E i = .ok (some (E.getValue row i)))
    (hconv : RowConverts E d.h.boundCols place rowIdx row) (hread : d.h.ReadBefore i)
    (hret : d.ret.succeeded = true) :
    ∃ d', deliverCell E place rowIdx d i = .ok d' ∧ SameCursor d.h d'.h ∧ d'.rows = d.rows ∧
      d'.ret.succeeded = true ∧ d'.h.ReadBefore (i + 1) ∧ ReadCell d.h d'.h := by
  have hget : d.h.boundCols[i]? = some d.h.boundCols[i] := List.getElem?_eq_getElem hi
  unfold deliverCell
  rw [hget]
  dsimp only
  split
  · next htakes =>
    obtain ⟨got, hgot, hsucc⟩ := hconv i _ hget htakes d.h hrow hread.freshOffset
    rw [hgot]
    have hsame := sameCursor_getDataStmtResult hgot
    have hrow' : got.h.odbcFetcher.chunkRow = d.h.odbcFetcher.chunkRow := by
      obtain ⟨last, diag, hh⟩ := hsame
      rw [hh]
    have hlast := lastFetched_getDataStmtResult hgot
    refine ⟨_, rfl, hsame, rfl, hsucc, ?_, hlast.imp_right fun hl => by rw [hrow']; exact hl.2⟩
    unfold ReadBefore
    dsimp only
    rw [hrow']
    rcases hlast with hlast | ⟨hcol, hlastrow⟩
    · rw [hlast]
      exact hread.mono
    · exact .inr (.inr ⟨hlastrow, by rw [hcol]; omega⟩)
  · exact ⟨d, rfl, .refl _, rfl, hret, hread.mono, .inl rfl⟩

/-- Nothing was read of the `k` rows behind the cursor. -/
def Unread (h : OdbcHandleStmt ρ V) (k : ℕ) : Prop :=
  h.odbcFetcher.lastFetched.length = 0 ∨
    h.odbcFetcher.lastFetched.rowIdx ≤ h.odbcFetcher.chunkRow ∨
    h.odbcFetcher.chunkRow + k < h.odbcFetcher.lastFetched.rowIdx

/-- Nothing was read of any row behind the cursor. -/
def ReadSoFar (h : OdbcHandleStmt ρ V) : Prop :=
  h.odbcFetcher.lastFetched.length = 0 ∨
    h.odbcFetcher.lastFetched.rowIdx ≤ h.odbcFetcher.chunkRow

/-- The rows behind what was read are unread. -/
theorem ReadSoFar.unread {h : OdbcHandleStmt ρ V} (hr : h.ReadSoFar) (k : ℕ) : h.Unread k :=
  hr.imp_right .inl

/-- The cell that was read last is still the one of `h`, or one of a row up to the cursor. -/
def ReadRows (h h' : OdbcHandleStmt ρ V) : Prop :=
  h'.odbcFetcher.lastFetched = h.odbcFetcher.lastFetched ∨
    h'.odbcFetcher.lastFetched.rowIdx ≤ h'.odbcFetcher.chunkRow

/-- Rows that are read are read from then on. -/
theorem ReadSoFar.of_readRows {h h' : OdbcHandleStmt ρ V} (hr : h.ReadSoFar) (hread : ReadRows h h')
    (hrow : h.odbcFetcher.chunkRow ≤ h'.odbcFetcher.chunkRow) : h'.ReadSoFar := by
  rcases hread with hlast | hle
  · unfold ReadSoFar at hr ⊢
    rw [hlast]
    exact hr.imp_right fun hle => Int.le_trans hle hrow
  · exact .inr hle

/-- The cursor is on the chunk `c`, whose bound cells all convert. -/
structure Deliverable (E : Engine ρ V) (h : OdbcHandleStmt ρ V) (c : DataChunk ρ)
    (place : CellPlace) : Prop where
  deref : h.odbcFetcher.deref = .ok c
  count : h.columnCount = .ok h.boundCols.length
  cols : h.boundCols.length ≤ c.columnCount
  converts : ∀ k row, c.rows[k]? = some row → RowConverts E h.boundCols place k row

/-- Cells can be delivered from every row of the chunk. -/
theorem Deliverable.ahead {E : Engine ρ V} {h : OdbcHandleStmt ρ V} {c : DataChunk ρ}
    {place : CellPlace} (hd : Deliverable E h c place) (k : ℕ) :
    Deliverable E (h.ahead k) c place :=
  ⟨hd.deref, hd.count, hd.cols, hd.converts⟩

theorem Deliverable.sameCursor {E : Engine ρ V} {h h' : OdbcHandleStmt ρ V} {c : DataChunk ρ}
    {place : CellPlace} (hd : Deliverable E h c place) (hh : SameCursor h h') :
    Deliverable E h' c place := by
  obtain ⟨last, diag, rfl⟩ := hh
  exact ⟨hd.deref, hd.count, hd.cols, hd.converts⟩

/-- The value of a cell in the row the cursor is on. -/
theorem getValue_of_deref {E : Engine ρ V} {h : OdbcHandleStmt ρ V} {c : DataChunk ρ}
    {row : ρ} {i : ℕ}
    (hderef : h.odbcFetcher.deref = .ok c) (hi : i < c.columnCount)
    (hpos : 0 ≤ h.odbcFetcher.chunkRow) (hrow : c.rows[h.odbcFetcher.chunkRow.toNat]? = some row) :
    h.getValue E i = .ok (some (E.getValue row i)) := by
  unfold getValue
  cases hcur : h.odbcFetcher.currentChunk with
  | none => simp [OdbcFetch.deref, hcur] at hderef
  | some c' =>
    simp only [hderef, bind, Except.bind]
    rw [if_neg (by omega), hrow]

/-- A row whose cells can be delivered is delivered. -/
theorem deliverRow_ok {E : Engine ρ V} {place : CellPlace} {d : Delivery ρ V} {c : DataChunk ρ}
    {row : ρ} (hd : Deliverable E d.h c place) (hlow : -1 ≤ d.h.odbcFetcher.chunkRow)
    (hrow : c.rows[(d.h.odbcFetcher.chunkRow + 1).toNat]? = some row)
    (hread : (d.h.ahead 1).ReadBefore 0) (hret : d.ret.succeeded = true) :
    ∃ d', deliverRow E place d (d.h.odbcFetcher.chunkRow + 1).toNat = .ok d' ∧
      SameCursor (d.h.ahead 1) d'.h ∧ d'.ret.succeeded = true ∧ ReadCell d.h d'.h := by
  have hcount : ({ d.h with odbcFetcher.chunkRow := d.h.odbcFetcher.chunkRow + 1 }).columnCount =
      .ok d.h.boundCols.length := hd.count
  have hconv := hd.converts _ row hrow
  -- after the first columns, nothing was read of the others
  obtain ⟨d', hfold, hsame, hret', -, hcell'⟩ := Outcome.foldlM_ok
    (f := deliverCell E place (d.h.odbcFetcher.chunkRow + 1).toNat)
    (fun pre d' => SameCursor (d.h.ahead 1) d'.h ∧ d'.ret.succeeded = true ∧
      d'.h.ReadBefore pre.length ∧ ReadCell d.h d'.h)
    (List.range d.h.boundCols.length)
    (by
      rintro pre i post d₁ hsplit ⟨hsame, hret₁, hread₁, hcell₁⟩
      have hlt : pre.length < d.h.boundCols.length := by
        have := congrArg List.length hsplit
        simp only [List.length_range, List.length_append, List.length_cons] at this
        omega
      obtain rfl : i = pre.length := by
        have := congrArg (fun l : List ℕ => l[pre.length]?) hsplit
        simpa [List.getElem?_range hlt] using this.symm
      have hd₁ := (hd.ahead 1).sameCursor hsame
      have hb₁ : d₁.h.boundCols = d.h.boundCols := by
        obtain ⟨last, diag, hh⟩ := hsame
        rw [hh]
        rfl
      have hcr₁ : d₁.h.odbcFetcher.chunkRow = d.h.odbcFetcher.chunkRow + 1 := by
        obtain ⟨last, diag, hh⟩ := hsame
        rw [hh]
        rfl
      have hval : d₁.h.getValue E pre.length = .ok (some (E.getValue row pre.length)) :=
        getValue_of_deref hd₁.deref (by have := hd.cols; omega) (by omega)
          (by rw [hcr₁]; exact hrow)
      obtain ⟨d₂, hd₂, hsame₂, -, hret₂, hread₂, hcell₂⟩ :=
        deliverCell_ok (by rw [hb₁]; exact hlt) hval
        (by rw [hb₁]; exact hconv) hread₁ hret₁
      have hcr₂ : d₂.h.odbcFetcher.chunkRow = d₁.h.odbcFetcher.chunkRow := by
        obtain ⟨last, diag, hh⟩ := hsame₂
        rw [hh]
      refine ⟨d₂, hd₂, hsame.trans hsame₂, hret₂, by simpa using hread₂, ?_⟩
      rcases hcell₂ with hlast | hlast
      · unfold ReadCell at hcell₁ ⊢
        rw [hlast, hcr₂]
        exact hcell₁
      · exact .inr hlast)
    (s := { d with
      h := { d.h with odbcFetcher.chunkRow := d.h.odbcFetcher.chunkRow + 1 }
      rows := d.rows ++ (c.rows[(d.h.odbcFetcher.chunkRow + 1).toNat]?).toList
      writes := d.writes ++
        { d.h with odbcFetcher.chunkRow := d.h.odbcFetcher.chunkRow + 1 }.setRowStatus
        (d.h.odbcFetcher.chunkRow + 1).toNat .success })
    ⟨.refl _, hret, hread, .inl rfl⟩
  refine ⟨d', ?_, hsame, hret', hcell'⟩
  unfold deliverRow
  rw [hd.deref]
  simp only [bind, Except.bind, hcount]
  exact hfold

/-- So are the rows of a rowset. -/
theorem deliverRows_ok {E : Engine ρ V} {place : CellPlace} {h : OdbcHandleStmt ρ V}
    {c : DataChunk ρ}
    (hd : Deliverable E h c place) (hlow : -1 ≤ h.odbcFetcher.chunkRow)
    (hread : h.Unread (h.lastRow c - h.firstRow)) :
    ∃ d, h.deliverRows E place = .ok d ∧ d.ret.succeeded = true ∧ ReadRows h d.h := by
  have hfirst : (h.firstRow : ℤ) = h.odbcFetcher.chunkRow + 1 := by
    simp only [firstRow]
    omega
  obtain ⟨d, hfold, -, hret, hread'⟩ := Outcome.foldlM_ok (f := deliverRow E place)
    (fun pre d => SameCursor (h.ahead pre.length) d.h ∧ d.ret.succeeded = true ∧ ReadRows h d.h)
    (List.range' h.firstRow (h.lastRow c - h.firstRow))
    (by
      rintro pre rowIdx post d hsplit ⟨hsame, hret, hread₁⟩
      have hlt : pre.length < h.lastRow c - h.firstRow := by
        have := congrArg List.length hsplit
        simp only [List.length_range', List.length_append, List.length_cons] at this
        omega
      have hidx : rowIdx = h.firstRow + pre.length := by
        have := congrArg (fun l : List ℕ => l[pre.length]?) hsplit
        simpa [List.getElem?_range' hlt] using this.symm
      have hcr : d.h.odbcFetcher.chunkRow = h.odbcFetcher.chunkRow + pre.length := by
        obtain ⟨last, diag, hh⟩ := hsame
        rw [hh]
        rfl
      have hnat : (d.h.odbcFetcher.chunkRow + 1).toNat = rowIdx := by omega
      have hsize : rowIdx < c.rows.length := by
        have : h.lastRow c ≤ c.size := Nat.min_le_right _ _
        change rowIdx < c.size
        omega
      have hrow : c.rows[(d.h.odbcFetcher.chunkRow + 1).toNat]? = some c.rows[rowIdx] := by
        rw [hnat, List.getElem?_eq_getElem hsize]
      -- the cell read last is none of the next row
      have hbefore : (d.h.ahead 1).ReadBefore 0 := by
        unfold ReadBefore ahead
        dsimp only
        rcases hread₁ with hlast | hle
        · rw [hlast]
          rcases hread with hlen | hle | hgt
          · exact .inl hlen
          · exact .inr (.inl (by omega))
          · exact .inr (.inl (by omega))
        · exact .inr (.inl (by omega))
      obtain ⟨d', hd', hsame', hret', hcell⟩ :=
        deliverRow_ok ((hd.ahead pre.length).sameCursor hsame)
        (by omega) hrow hbefore hret
      have hcr' : d'.h.odbcFetcher.chunkRow = d.h.odbcFetcher.chunkRow + 1 := by
        obtain ⟨last, diag, hh⟩ := hsame'
        rw [hh]
        rfl
      rw [hnat] at hd'
      refine ⟨d', hd', ?_, hret', ?_⟩
      · rw [List.length_append, List.length_singleton, ← ahead_ahead]
        exact (hsame.ahead 1).trans hsame'
      · rcases hcell with hlast | hlast
        · unfold ReadRows at hread₁ ⊢
          rw [hlast]
          exact hread₁.imp_right fun hle => by omega
        · exact .inr (Int.le_of_eq hlast))
    (s := ⟨.success, h, [], []⟩) ⟨by simpa using SameCursor.refl h, rfl, .inl rfl⟩
  refine ⟨d, ?_, hret, hread'⟩
  unfold deliverRows
  rw [hd.deref]
  exact hfold

/-- The places of the orientation in force. -/
def place (h : OdbcHandleStmt ρ V) : CellPlace :=
  if h.rowDesc.ard.bindType = 0 then h.columnPlace else h.rowPlace

/-- The rows behind the cursor of a rowset in the chunk `c`. -/
def rowset (h : OdbcHandleStmt ρ V) (c : DataChunk ρ) : List ρ :=
  (c.rows.drop h.firstRow).take h.rowsetSize

/-- A rowset ends at the end of the chunk. -/
theorem length_rowset (h : OdbcHandleStmt ρ V) (c : DataChunk ρ) :
    (h.rowset c).length = h.lastRow c - h.firstRow := by
  simp only [rowset, lastRow, List.length_take, List.length_drop, DataChunk.size]
  omega

/-- A bound delivery of cells that all convert : the rows of the rowset, on the last of which
it leaves the cursor, and their number. -/
theorem bound_ok {E : Engine ρ V} {h : OdbcHandleStmt ρ V} {c : DataChunk ρ}
    (hd : Deliverable E h c h.place) (hlow : -1 ≤ h.odbcFetcher.chunkRow)
    (hhigh : h.odbcFetcher.chunkRow < c.size) (hread : h.Unread (h.rowset c).length)
    (hn : h.rowsetSize < 2 ^ 64) :
    ∃ d₀ d, h.deliverRows E h.place = .ok d₀ ∧ h.bound E = .ok d ∧
      d = setRowsFetched d₀ (h.rowset c).length ∧
      d.ret.succeeded = true ∧ d.rows = h.rowset c ∧
      SameCursor (h.ahead (h.rowset c).length) d.h ∧ ReadRows h d.h := by
  rw [length_rowset] at hread
  obtain ⟨d₀, hd₀, hret, hread'⟩ := deliverRows_ok hd hlow hread
  obtain ⟨hsame, hrows⟩ := deliverRows_cases hd.deref hlow hd₀
  rw [← length_rowset] at hsame
  have hcount : sizeT (h.lastRow c - h.firstRow) = (h.rowset c).length := by
    have hle : h.firstRow ≤ c.size := by simp only [firstRow]; omega
    have hsize := sizeT_of_nonneg (n := (h.lastRow c : ℤ) - h.firstRow)
      (by simp only [lastRow]; omega) (by simp only [lastRow]; omega)
    rw [length_rowset]
    omega
  refine ⟨d₀, setRowsFetched d₀ (h.rowset c).length, hd₀, ?_, rfl, by simpa using hret,
    by simpa [rowset] using hrows, by simpa using hsame, by simpa using hread'⟩
  unfold bound
  unfold place at hd₀
  split at hd₀
  · next hcol =>
    rw [if_pos hcol]
    unfold columnWise
    rw [hd.deref]
    simp only [bind, Except.bind, hd₀, hcount]
    rfl
  · next hrow =>
    rw [if_neg hrow]
    unfold rowWise
    rw [hd.deref]
    simp only [bind, Except.bind, hd₀, length_rowset]
    rfl

/-- `h'` is `h` with its cursor `k` rows further in its chunk, after a delivery. -/
def Advanced (h : OdbcHandleStmt ρ V) (k : ℕ) (h' : OdbcHandleStmt ρ V) : Prop :=
  ∃ count last diag, h' =
    { h with
      odbcFetcher :=
        { h.odbcFetcher with
          chunkRow := h.odbcFetcher.chunkRow + k, rowCount := count, lastFetched := last },
      diag := diag }

theorem Advanced.chunkRow {h h' : OdbcHandleStmt ρ V} {k : ℕ} (ha : Advanced h k h') :
    h'.odbcFetcher.chunkRow = h.odbcFetcher.chunkRow + k := by
  obtain ⟨count, last, diag, rfl⟩ := ha
  rfl

/-- Counting the rows needs the chunk only. -/
theorem increaseRowCount_ok {h : OdbcHandleStmt ρ V} {c : DataChunk ρ}
    (hderef : h.odbcFetcher.deref = .ok c) :
    ∃ count, h.increaseRowCount = .ok { h with odbcFetcher.rowCount := count } := by
  unfold increaseRowCount
  rw [hderef]
  simp only [bind, Except.bind]
  split
  · exact ⟨_, rfl⟩
  · exact ⟨_, rfl⟩

/-- `Fetch` on a chunk whose bound cells all convert. -/
theorem deliver_ok {E : Engine ρ V} {h : OdbcHandleStmt ρ V} {c : DataChunk ρ}
    (hb : h.boundCols ≠ [])
    (hd : Deliverable E h c h.place) (hlow : -1 ≤ h.odbcFetcher.chunkRow)
    (hhigh : h.odbcFetcher.chunkRow < c.size) (hread : h.Unread (h.rowset c).length)
    (hn : h.rowsetSize < 2 ^ 64) :
    ∃ d₀ d, h.deliverRows E h.place = .ok d₀ ∧ h.deliver E = .ok d ∧
      d.writes = (setRowsFetched d₀ (h.rowset c).length).writes ∧
      d.ret.succeeded = true ∧ d.rows = h.rowset c ∧ Advanced h (h.rowset c).length d.h ∧
      ReadRows h d.h := by
  obtain ⟨d₀, d, hd₀, hbound, hwrites, hret, hrows, hsame, hread'⟩ :=
    bound_ok hd hlow hhigh hread hn
  have hderef : d.h.odbcFetcher.deref = .ok c := by rw [hsame.deref]; exact hd.deref
  obtain ⟨count, hcount⟩ := increaseRowCount_ok hderef
  refine ⟨d₀, { d with h := { d.h with odbcFetcher.rowCount := count } }, hd₀, ?_, ?_, hret, hrows,
    ?_, hread'⟩
  · rw [deliver_of_bound hb, hbound]
    simp only [bind, Except.bind, hret, not_true_eq_false, if_false, hcount]
  · dsimp only
    rw [hwrites]
  · obtain ⟨last, diag, hh⟩ := hsame
    exact ⟨count, last, diag, by dsimp only; rw [hh]; rfl⟩

/-- `Fetch` without a bound column : the cursor moves by the size of a rowset. -/
theorem deliver_unbound {E : Engine ρ V} {h : OdbcHandleStmt ρ V} {c : DataChunk ρ}
    (hb : h.boundCols = []) (hderef : h.odbcFetcher.deref = .ok c) :
    ∃ d, h.deliver E = .ok d ∧ d.ret = .success ∧
      d.rows = (c.rows[(h.odbcFetcher.chunkRow + h.rowsetSize).toNat]?).toList ∧
      d.writes = (if h.rowsFetchedPtr ≠ 0 then [.rowsFetched 1] else []) ∧
      Advanced h h.rowsetSize d.h ∧ d.h.odbcFetcher.lastFetched = h.odbcFetcher.lastFetched := by
  have hderef' : (h.ahead h.rowsetSize).odbcFetcher.deref = .ok c := hderef
  obtain ⟨count, hcount⟩ := increaseRowCount_ok hderef'
  have hdeliver : h.deliver E = .ok (setRowsFetched
      ⟨.success, { h.ahead h.rowsetSize with odbcFetcher.rowCount := count },
        (c.rows[(h.odbcFetcher.chunkRow + h.rowsetSize).toNat]?).toList, []⟩ 1) := by
    unfold deliver fetchUnbound
    rw [if_pos (by simp [hb])]
    change (h.ahead h.rowsetSize).odbcFetcher.deref >>= _ = _
    rw [hderef']
    change (h.ahead h.rowsetSize).increaseRowCount >>= _ = _
    rw [hcount]
    rfl
  refine ⟨_, hdeliver, by simp, by simp, ?_, ⟨count, h.odbcFetcher.lastFetched, h.diag,
    by rw [setRowsFetched_h]; rfl⟩, by rw [setRowsFetched_h]; rfl⟩
  by_cases hp : h.rowsFetchedPtr = 0 <;> simp [setRowsFetched, ahead, hp]

/-! ## The number of rows fetched -/

/-- The values that were stored as the number of rows fetched. -/
def rowsFetchedOf (writes : List Write) : List ℕ :=
  writes.filterMap fun
    | .rowsFetched n => some n
    | _ => none

@[simp] theorem rowsFetchedOf_append (ws ws' : List Write) :
    rowsFetchedOf (ws ++ ws') = rowsFetchedOf ws ++ rowsFetchedOf ws' := by
  simp [rowsFetchedOf]

theorem rowsFetchedOf_setRowStatus (h : OdbcHandleStmt ρ V) (rowIdx : ℕ) (st : RowStatus) :
    rowsFetchedOf (h.setRowStatus rowIdx st) = [] := by
  unfold setRowStatus
  split <;> rfl

theorem rowsFetchedOf_deliverRow {E : Engine ρ V} {place : CellPlace} {rowIdx : ℕ}
    {d d' : Delivery ρ V} (hd : rowsFetchedOf d.writes = [])
    (hx : deliverRow E place d rowIdx = .ok d') : rowsFetchedOf d'.writes = [] := by
  obtain ⟨c, -, hx⟩ := Outcome.bind_eq_ok.1 hx
  obtain ⟨count, -, hx⟩ := Outcome.bind_eq_ok.1 hx
  refine Outcome.foldlM_invariant (fun d : Delivery ρ V => rowsFetchedOf d.writes = []) ?_ ?_ hx
  · intro d₁ col d₂ _ hd₁ hcell
    unfold deliverCell at hcell
    split at hcell
    · cases hcell
    · split at hcell
      · obtain ⟨got, hgot, hcell⟩ := Outcome.bind_eq_ok.1 hcell
        cases hcell
        have hwrites : rowsFetchedOf got.writes = [] := by
          refine List.filterMap_eq_nil_iff.2 fun w hw => ?_
          have := isCellWrite_getDataStmtResult hgot w hw
          cases w <;> simp_all [IsCellWrite]
        dsimp only
        rw [rowsFetchedOf_append, rowsFetchedOf_append, hd₁, hwrites]
        split
        · rfl
        · rw [rowsFetchedOf_setRowStatus]
          rfl
      · cases hcell
        exact hd₁
  · dsimp only
    rw [rowsFetchedOf_append, hd, rowsFetchedOf_setRowStatus]
    rfl

/-- Only the end of a delivery stores the number of rows. -/
theorem rowsFetchedOf_deliverRows {E : Engine ρ V} {place : CellPlace} {h : OdbcHandleStmt ρ V}
    {d : Delivery ρ V} (hx : h.deliverRows E place = .ok d) : rowsFetchedOf d.writes = [] := by
  obtain ⟨c, -, hx⟩ := Outcome.bind_eq_ok.1 hx
  exact Outcome.foldlM_invariant (fun d : Delivery ρ V => rowsFetchedOf d.writes = [])
    (fun d₁ rowIdx d₂ _ hd₁ hrow => rowsFetchedOf_deliverRow hd₁ hrow) rfl hx

end OdbcHandleStmt

end HaybarnOdbc
