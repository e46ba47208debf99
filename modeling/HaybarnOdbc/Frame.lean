import HaybarnOdbc.Deliver

/-!
# What a delivery reads of the fetcher

A delivery reads the current chunk and the row in it. The other stored chunks, the number
of the current one, the chunks the engine has left and whether the end was seen play no
part, nor does a cell of another row that was read last : from two handles that differ in
these alone, a delivery returns the same code, hands over the same rows and makes the same
stores, and fails alike (`Alike.deliver`).
-/

namespace HaybarnOdbc

variable {ρ V : Type}

open Outcome (Agree)

/-- Nothing is noted as read of the row. -/
def LastFetched.Clear (l : LastFetched) (row : ℤ) : Prop := l.length = 0 ∨ l.rowIdx ≠ row

namespace OdbcHandleStmt

/-- `h` with another noted cell, result, list of chunks, number of the current chunk, and
end flag. -/
def onStore (h : OdbcHandleStmt ρ V) (last : LastFetched) (res : Option (QueryResult ρ))
    (chunks : List (DataChunk ρ)) (idx : ℕ) (seen : Bool) : OdbcHandleStmt ρ V :=
  { h with
    res := res
    odbcFetcher :=
      { h.odbcFetcher with
        lastFetched := last
        chunks := chunks
        currentChunkIdx := idx
        resultsetEnd := seen } }

/-- Two handles that a delivery does not tell apart. They note the same cell, or still the
cells `l` and `l'` from before the delivery. -/
def Alike (l l' : LastFetched) (h h' : OdbcHandleStmt ρ V) : Prop :=
  ∃ last res chunks idx seen, h' = h.onStore last res chunks idx seen ∧
    (last = h.odbcFetcher.lastFetched ∨ (h.odbcFetcher.lastFetched = l ∧ last = l')) ∧
    h'.odbcFetcher.deref = h.odbcFetcher.deref

variable {l l' : LastFetched} {h h' : OdbcHandleStmt ρ V}

theorem Alike.deref (ha : Alike l l' h h') : h'.odbcFetcher.deref = h.odbcFetcher.deref := by
  obtain ⟨last, res, chunks, idx, seen, -, -, hderef⟩ := ha
  exact hderef

theorem Alike.columnCount (ha : Alike l l' h h') : h'.columnCount = h.columnCount := by
  obtain ⟨last, res, chunks, idx, seen, rfl, -⟩ := ha
  rfl

/-- Alike handles have the same values. -/
theorem Alike.getValue (ha : Alike l l' h h') (E : Engine ρ V) (colIdx : ℕ) :
    h'.getValue E colIdx = h.getValue E colIdx := by
  have hderef := ha.deref
  obtain ⟨last, res, chunks, idx, seen, rfl, -⟩ := ha
  unfold getValue
  rw [hderef]
  rfl

/-- Both note the same cell once one of the current row is read. -/
theorem Alike.setLastFetchedVariableVal (ha : Alike l l' h h') (hl : l.Clear h.odbcFetcher.chunkRow)
    (hl' : l'.Clear h.odbcFetcher.chunkRow) (col : ℤ) :
    ∃ res chunks idx seen, h'.setLastFetchedVariableVal col =
      (h.setLastFetchedVariableVal col).onStore
        (h.setLastFetchedVariableVal col).odbcFetcher.lastFetched res chunks idx seen ∧
      (h'.setLastFetchedVariableVal col).odbcFetcher.deref = h.odbcFetcher.deref := by
  have hderef := ha.deref
  obtain ⟨last, res, chunks, idx, seen, rfl, hlast, -⟩ := ha
  have hclear : ∀ k : LastFetched, k.Clear h.odbcFetcher.chunkRow →
      (if k.colIdx ≠ col ∨ k.rowIdx ≠ h.odbcFetcher.chunkRow then 0 else k.length) = 0 := by
    rintro k (hk | hk)
    · split
      · rfl
      · exact hk
    · rw [if_pos (.inr hk)]
  refine ⟨res, chunks, idx, seen, ?_, hderef⟩
  rcases hlast with rfl | ⟨rfl, rfl⟩
  · rfl
  · exact congrArg (fun n => (h.onStore ⟨col, h.odbcFetcher.chunkRow, n⟩ res chunks idx seen))
      ((hclear _ hl').trans (hclear _ hl).symm)

/-- Two calls did the same. -/
def SameGot (l l' : LastFetched) (g g' : Got ρ V) : Prop :=
  g'.ret = g.ret ∧ g'.writes = g.writes ∧ Alike l l' g.h g'.h

/-- They store the same piece of a value. -/
theorem Alike.getVariableValue (ha : Alike l l' h h') (hl : l.Clear h.odbcFetcher.chunkRow)
    (hl' : l'.Clear h.odbcFetcher.chunkRow) (colIdx : ℕ) (target : Addr) (bufferLength : ℤ)
    (strLenOrInd : Addr) (val : List UInt8) (charSize : ℕ) (nullTerminate : Bool) :
    Agree (SameGot l l')
      (h.getVariableValue colIdx target bufferLength strLenOrInd val charSize nullTerminate)
      (h'.getVariableValue colIdx target bufferLength strLenOrInd val charSize nullTerminate) := by
  obtain ⟨res, chunks, idx, seen, hset, hderef⟩ := ha.setLastFetchedVariableVal hl hl' colIdx
  rw [hset] at hderef
  unfold OdbcHandleStmt.getVariableValue
  rw [hset]
  generalize hs : h.setLastFetchedVariableVal colIdx = s at hderef ⊢
  have hds : s.odbcFetcher.deref = h.odbcFetcher.deref := by rw [← hs]; rfl
  have hd := hderef.trans hds.symm
  refine .ite (fun _ => .ok ⟨rfl, rfl, _, _, _, _, _, rfl, .inl rfl, hd⟩) fun _ => ?_
  refine .ite (fun _ => .ok ⟨rfl, rfl, _, _, _, _, _, rfl, .inl rfl, hd⟩) fun _ => ?_
  refine .ite (fun _ => ?_) fun _ => ?_
  · exact .ite (fun _ => .ok ⟨rfl, rfl, _, _, _, _, _, rfl, .inl rfl, hd⟩) fun _ =>
      .ok ⟨rfl, rfl, _, _, _, _, _, rfl, .inl rfl, hd⟩
  · have hlen : (s.onStore s.odbcFetcher.lastFetched res chunks idx seen).odbcFetcher.lastFetched =
        s.odbcFetcher.lastFetched := rfl
    rw [hlen]
    by_cases hcut : sizeT (val.length - s.odbcFetcher.lastFetched.length) >
        sizeT (if nullTerminate then bufferLength - charSize else bufferLength)
    · rw [if_pos hcut, if_pos hcut]
      exact .ite (fun _ => .error _) fun _ => .ok ⟨rfl, rfl, _, _, _, _, _, rfl, .inl rfl, hd⟩
    · rw [if_neg hcut, if_neg hcut]
      exact .ite (fun _ => .error _) fun _ => .ok ⟨rfl, rfl, _, _, _, _, _, rfl, .inl rfl, hd⟩

/-- They store the same of a cell. -/
theorem Alike.getDataStmtResult (ha : Alike l l' h h') (hl : l.Clear h.odbcFetcher.chunkRow)
    (hl' : l'.Clear h.odbcFetcher.chunkRow) (E : Engine ρ V) (num : ℕ) (t : CType) (target : Addr)
    (bufferLength : ℤ) (strLenOrInd : Addr) :
    Agree (SameGot l l') (h.getDataStmtResult E num t target bufferLength strLenOrInd)
      (h'.getDataStmtResult E num t target bufferLength strLenOrInd) := by
  have hvar := ha.getVariableValue hl hl'
  have hsame : ∀ (ret : SqlReturn) (records : List DiagRecord) (ws : List Write),
      Agree (ε := Fault) (SameGot l l') (.ok ⟨ret, { h with diag := h.diag ++ records }, ws⟩)
        (.ok ⟨ret, { h' with diag := h'.diag ++ records }, ws⟩) := by
    obtain ⟨last, res, chunks, idx, seen, rfl, hlast, hderef⟩ := ha
    exact fun ret records ws => .ok ⟨rfl, rfl, _, _, _, _, _, rfl, hlast, hderef⟩
  unfold OdbcHandleStmt.getDataStmtResult
  refine .ite (fun _ => .ok ⟨rfl, rfl, ha⟩) fun _ => ?_
  refine .bind (Agree.of_eq (ha.getValue E (num - 1)).symm) ?_
  rintro val - - rfl
  cases val.filter fun v => ¬E.isNull v with
  | none => exact .ite (fun _ => .ok ⟨rfl, rfl, ha⟩) fun _ => .ok ⟨rfl, rfl, ha⟩
  | some v =>
    dsimp only
    generalize (if t = .default then resolveDefaultType (E.typeId (E.atUtcOffset v)) bufferLength
      else t) =
      resolved
    cases resolved with
    | wchar | binary | char =>
      dsimp only
      split
      · exact hvar _ _ _ _ _ _ _
      · exact .error _
    | _ =>
      -- a type of fixed size, or one that is not supported
      dsimp only
      split
      · split
        · exact .ok ⟨rfl, rfl, ha⟩
        · exact hsame _ _ _
        · exact .error _
      · exact hsame _ _ _

/-- Two deliveries did the same. -/
def SameDelivery (l l' : LastFetched) (d d' : Delivery ρ V) : Prop :=
  d'.ret = d.ret ∧ d'.rows = d.rows ∧ d'.writes = d.writes ∧ Alike l l' d.h d'.h

/-- The same cell is delivered. -/
theorem SameDelivery.deliverCell {d d' : Delivery ρ V} (hd : SameDelivery l l' d d')
    (hl : l.Clear d.h.odbcFetcher.chunkRow) (hl' : l'.Clear d.h.odbcFetcher.chunkRow)
    (E : Engine ρ V)
    (place : CellPlace) (rowIdx colIdx : ℕ) :
    Agree (fun e e' => SameDelivery l l' e e' ∧ e.h.odbcFetcher.chunkRow = d.h.odbcFetcher.chunkRow)
      (deliverCell E place rowIdx d colIdx) (deliverCell E place rowIdx d' colIdx) := by
  obtain ⟨hret, hrows, hwrites, ha⟩ := hd
  have hcols : d'.h.boundCols = d.h.boundCols := by
    obtain ⟨_, _, _, _, _, hh, -⟩ := ha
    rw [hh]
    rfl
  unfold OdbcHandleStmt.deliverCell
  rw [hcols]
  cases d.h.boundCols[colIdx]? with
  | none => exact .error _
  | some c =>
    refine .ite (fun _ => ?_) fun _ => .ok ⟨⟨hret, hrows, hwrites, ha⟩, rfl⟩
    refine .bind (ha.getDataStmtResult hl hl' E _ _ _ _ _) ?_
    rintro g g' hg ⟨hgret, hgwrites, hgh⟩
    have hrow : g.h.odbcFetcher.chunkRow = d.h.odbcFetcher.chunkRow := by
      obtain ⟨last, diag, hh⟩ := sameCursor_getDataStmtResult hg
      rw [hh]
    have hst : g'.h.setRowStatus rowIdx .error = g.h.setRowStatus rowIdx .error := by
      obtain ⟨_, _, _, _, _, hh, -⟩ := hgh
      rw [hh]
      rfl
    exact .ok ⟨⟨hgret, hrows, by simp only [hgret, hwrites, hgwrites, hst], hgh⟩, hrow⟩

/-- A row from handles that note nothing of it. -/
theorem SameDelivery.deliverRow {d d' : Delivery ρ V} (hd : SameDelivery l l' d d')
    (hl : l.Clear (d.h.odbcFetcher.chunkRow + 1)) (hl' : l'.Clear (d.h.odbcFetcher.chunkRow + 1))
    (E : Engine ρ V) (place : CellPlace) (rowIdx : ℕ) :
    Agree (fun e e' => SameDelivery l l' e e' ∧ e.h.odbcFetcher.chunkRow =
    d.h.odbcFetcher.chunkRow + 1)
      (deliverRow E place d rowIdx) (deliverRow E place d' rowIdx) := by
  obtain ⟨hret, hrows, hwrites, ha⟩ := hd
  unfold OdbcHandleStmt.deliverRow
  refine .bind (Agree.of_eq ha.deref.symm) ?_
  rintro c - - rfl
  refine .bind (Agree.of_eq ha.columnCount.symm) ?_
  rintro count - - rfl
  have hstart : SameDelivery l l'
      { d with
        h := { d.h with odbcFetcher.chunkRow := d.h.odbcFetcher.chunkRow + 1 }
        rows := d.rows ++ (c.rows[(d.h.odbcFetcher.chunkRow + 1).toNat]?).toList
        writes := d.writes ++ d.h.setRowStatus rowIdx .success }
      { d' with
        h := { d'.h with odbcFetcher.chunkRow := d'.h.odbcFetcher.chunkRow + 1 }
        rows := d'.rows ++ (c.rows[(d'.h.odbcFetcher.chunkRow + 1).toNat]?).toList
        writes := d'.writes ++ d'.h.setRowStatus rowIdx .success } := by
    obtain ⟨last, res, chunks, idx, seen, hh, hlast, hderef⟩ := ha
    rw [hh, hrows, hwrites, hret] at *
    exact ⟨rfl, rfl, rfl, _, _, _, _, _, rfl, hlast, hderef⟩
  exact Agree.foldlM (fun _ e e' => SameDelivery l l' e e' ∧
      e.h.odbcFetcher.chunkRow = d.h.odbcFetcher.chunkRow + 1) _ 0
    (by
      rintro i col e e' - ⟨he, hrow⟩
      rw [← hrow] at hl hl' ⊢
      exact he.deliverCell hl hl' E place rowIdx col)
    ⟨hstart, rfl⟩

/-- Nothing is noted as read of the `n` rows behind row `row`. -/
def ClearRows (row : ℤ) (n : ℕ) (l : LastFetched) : Prop := ∀ k < n, l.Clear (row + k + 1)

theorem Unread.clearRows {n : ℕ} (hu : h.Unread n) :
    ClearRows h.odbcFetcher.chunkRow n h.odbcFetcher.lastFetched := by
  intro k hk
  rcases hu with hlen | hle | hlt
  · exact .inl hlen
  · exact .inr (by omega)
  · exact .inr (by omega)

section Rowset

variable {c : DataChunk ρ}

/-- The same rows are delivered. -/
theorem Alike.deliverRows (ha : Alike l l' h h') (hc : h.odbcFetcher.deref = .ok c)
    (hl : ClearRows h.odbcFetcher.chunkRow (h.rowset c).length l)
    (hl' : ClearRows h.odbcFetcher.chunkRow (h.rowset c).length l') (E : Engine ρ V)
    (place : CellPlace) :
    Agree (SameDelivery l l') (h.deliverRows E place) (h'.deliverRows E place) := by
  have hrange : h'.firstRow = h.firstRow ∧ h'.lastRow c = h.lastRow c := by
    obtain ⟨_, _, _, _, _, rfl, -⟩ := ha
    exact ⟨rfl, rfl⟩
  rw [length_rowset] at hl hl'
  unfold OdbcHandleStmt.deliverRows
  refine .bind (Agree.of_eq ha.deref.symm) ?_
  rintro c₁ c₂ hc₁ rfl
  obtain rfl : c = c₁ := Except.ok.inj (hc.symm.trans hc₁)
  rw [hrange.1, hrange.2]
  have hstart : SameDelivery l l' ⟨.success, h, [], []⟩ ⟨.success, h', [], []⟩ :=
    ⟨rfl, rfl, rfl, ha⟩
  refine (Agree.foldlM (fun k e e' =>
    SameDelivery l l' e e' ∧ e.h.odbcFetcher.chunkRow = h.odbcFetcher.chunkRow + k) _ 0
    ?_ ⟨hstart, by simp⟩).imp fun _ _ _ _ he => he.1
  rintro k row e e' hk ⟨he, hrow⟩
  have hlt : k < h.lastRow c - h.firstRow := by
    simpa using (List.getElem?_eq_some_iff.1 hk).1
  rw [Nat.zero_add] at hrow ⊢
  have hnext := he.deliverRow (by rw [hrow]; exact hl k hlt)
    (by rw [hrow]; exact hl' k hlt) E place row
  rw [hrow, Int.add_assoc] at hnext
  exact hnext

theorem SameDelivery.setRowsFetched {d d' : Delivery ρ V} (hd : SameDelivery l l' d d') (n : ℕ) :
    SameDelivery l l' (setRowsFetched d n) (setRowsFetched d' n) := by
  obtain ⟨hret, hrows, hwrites, ha⟩ := hd
  have hptr : d'.h.rowsFetchedPtr = d.h.rowsFetchedPtr := by
    obtain ⟨_, _, _, _, _, hh, -⟩ := ha
    rw [hh]
    rfl
  unfold OdbcHandleStmt.setRowsFetched
  rw [hptr]
  split
  · exact ⟨hret, hrows, by rw [hwrites], ha⟩
  · exact ⟨hret, hrows, hwrites, ha⟩

/-- The same rowset is delivered to bound columns. -/
theorem Alike.bound (ha : Alike l l' h h') (hc : h.odbcFetcher.deref = .ok c)
    (hl : ClearRows h.odbcFetcher.chunkRow (h.rowset c).length l)
    (hl' : ClearRows h.odbcFetcher.chunkRow (h.rowset c).length l') (E : Engine ρ V) :
    Agree (SameDelivery l l') (h.bound E) (h'.bound E) := by
  have hrows := fun place => ha.deliverRows hc hl hl' E place
  have hsame : h'.rowDesc = h.rowDesc ∧ h'.columnPlace = h.columnPlace ∧ h'.rowPlace = h.rowPlace ∧
      h'.firstRow = h.firstRow ∧ h'.lastRow c = h.lastRow c := by
    obtain ⟨_, _, _, _, _, rfl, -⟩ := ha
    exact ⟨rfl, rfl, rfl, rfl, rfl⟩
  obtain ⟨hdesc, hcol, hrow, hfirst, hlast⟩ := hsame
  unfold OdbcHandleStmt.bound
  rw [hdesc]
  refine .ite (fun _ => ?_) fun _ => ?_
  · unfold columnWise
    refine .bind (Agree.of_eq ha.deref.symm) ?_
    rintro c₁ c₂ hc₁ rfl
    obtain rfl : c = c₁ := Except.ok.inj (hc.symm.trans hc₁)
    rw [hcol, hfirst, hlast]
    refine .bind (hrows _) fun d d' _ hd => .ok ?_
    exact hd.setRowsFetched _
  · unfold rowWise
    refine .bind (Agree.of_eq ha.deref.symm) ?_
    rintro c₁ c₂ hc₁ rfl
    obtain rfl : c = c₁ := Except.ok.inj (hc.symm.trans hc₁)
    rw [hrow, hfirst, hlast]
    refine .bind (hrows _) fun d d' _ hd => .ok ?_
    exact hd.setRowsFetched _

/-- The rows are counted alike. -/
theorem Alike.increaseRowCount (ha : Alike l l' h h') :
    Agree (Alike l l') h.increaseRowCount h'.increaseRowCount := by
  unfold OdbcHandleStmt.increaseRowCount
  refine .bind (Agree.of_eq ha.deref.symm) ?_
  rintro c - - rfl
  obtain ⟨last, res, chunks, idx, seen, rfl, hlast, hderef⟩ := ha
  exact .ite (fun _ => .ok ⟨_, _, _, _, _, rfl, hlast, hderef⟩) fun _ =>
    .ok ⟨_, _, _, _, _, rfl, hlast, hderef⟩

/-- A delivery from two handles that note nothing of its rows. -/
theorem Alike.deliver (ha : Alike l l' h h') (hc : h.odbcFetcher.deref = .ok c)
    (hclear : h.boundCols = [] ∨ (ClearRows h.odbcFetcher.chunkRow (h.rowset c).length l ∧
      ClearRows h.odbcFetcher.chunkRow (h.rowset c).length l')) (E : Engine ρ V) :
    Agree (SameDelivery l l') (h.deliver E) (h'.deliver E) := by
  have hcols : h'.boundCols = h.boundCols := by
    obtain ⟨_, _, _, _, _, rfl, -⟩ := ha
    rfl
  by_cases hb : h.boundCols = []
  · unfold OdbcHandleStmt.deliver
    rw [hcols, if_pos (by simp [hb]), if_pos (by simp [hb])]
    obtain ⟨last, res, chunks, idx, seen, rfl, hlast, hderef⟩ := ha
    unfold fetchUnbound
    refine .bind (Agree.of_eq hderef.symm) ?_
    rintro c₁ c₂ - rfl
    have hmoved : Alike l l'
      { h with odbcFetcher.chunkRow := h.odbcFetcher.chunkRow + h.rowsetSize }
        { h.onStore last res chunks idx seen with
          odbcFetcher.chunkRow := h.odbcFetcher.chunkRow + h.rowsetSize } :=
      ⟨_, _, _, _, _, rfl, hlast, hderef⟩
    refine .bind hmoved.increaseRowCount fun s s' _ hs => .ok (SameDelivery.setRowsFetched ?_ 1)
    have hrow : s'.odbcFetcher.chunkRow = s.odbcFetcher.chunkRow := by
      obtain ⟨_, _, _, _, _, rfl, -⟩ := hs
      rfl
    exact ⟨rfl, by rw [hrow], rfl, hs⟩
  · obtain ⟨hl, hl'⟩ := hclear.resolve_left hb
    rw [deliver_of_bound hb, deliver_of_bound (by rw [hcols]; exact hb)]
    refine .bind (ha.bound hc hl hl' E) ?_
    rintro d d' - ⟨hret, hrows, hwrites, hd⟩
    rw [hret]
    refine .ite (fun _ => .ok ⟨hret, hrows, hwrites, hd⟩) fun _ => ?_
    exact .bind hd.increaseRowCount fun s s' _ hs => .ok ⟨rfl, hrows, hwrites, hs⟩

end Rowset

end OdbcHandleStmt

end HaybarnOdbc
