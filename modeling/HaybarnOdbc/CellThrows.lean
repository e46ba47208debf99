import HaybarnOdbc.CellAccess

/-!
# Cells that throw

`GetDataStmtResult` catches nothing : `Blob::ToBlob` throws at a backslash that begins no escape,
`Timestamp::GetTime` throws at infinity. An exception leaves the loops of `ColumnWise` and `RowWise`
and the fetch with them, after `SetRowStatus` wrote `SQL_ROW_SUCCESS` for the row, and it is the
only one that does : a fetch that follows no pointer or index astray returns exactly if none of its
cells throws (`fetchStmtResult_returns_iff`).
-/

namespace HaybarnOdbc

variable {ρ V : Type}

/-- The conversion of a value to the type a cell is asked for throws. `SQL_C_DEFAULT` is the type of
the value. -/
def Engine.Throws (E : Engine ρ V) (t : CType) (bufferLength : ℤ) (v : V) : Prop :=
  match if t = .default then resolveDefaultType (E.typeId v) bufferLength else t with
  | .wchar => ∃ msg, E.wcharBytes v = .error msg
  | .binary => ∃ msg, E.binaryBytes v = .error msg
  | .char => ∃ msg, E.charBytes v = .error msg
  | t => t.storedSize.isSome = true ∧ ∃ msg, E.castAs t v = .error (.thrown msg)

namespace OdbcHandleStmt

/-- The cell of a bound column in the row that the cursor is on throws. A null is not converted,
and neither is a value without a target. -/
def CellThrows (E : Engine ρ V) (h : OdbcHandleStmt ρ V) (place : CellPlace) (rowIdx col : ℕ) :
    Prop :=
  ∃ b v, h.boundCols[col]? = some b ∧ place.takes b = true ∧
    ReadsValue b.type (place.valAddr b rowIdx) ∧ h.getValue E col = .ok (some v) ∧
    E.isNull v = false ∧ E.Throws b.type b.len (E.atUtcOffset v)

/-- One of the cells that a bound delivery comes to throws. -/
def RowsetThrows (E : Engine ρ V) (h : OdbcHandleStmt ρ V) : Prop :=
  h.boundCols ≠ [] ∧ ∃ c n, h.odbcFetcher.deref = .ok c ∧ h.columnCount = .ok n ∧
    ∃ k < (h.rowset c).length, ∃ col < n,
      CellThrows E (h.ahead (k + 1)) h.place (h.firstRow + k) col

/-- One of the cells of a fetch throws. -/
def SomeCellThrows (E : Engine ρ V) (h : OdbcHandleStmt ρ V) (orientation : FetchOrientation)
    (fetchOffset : ℤ) : Prop :=
  h.opened = true ∧
    ∃ h', h.fetchNextChunk orientation fetchOffset = .ok (.success, h') ∧ RowsetThrows E h'

variable {E : Engine ρ V} {h : OdbcHandleStmt ρ V} {place : CellPlace} {rowIdx col : ℕ}

/-- The computation is not left by an exception, whatever else it fails with. -/
abbrev NeverThrows {α : Type} (x : Except Fault α) : Prop :=
  Outcome.Safe Fault.IsThrown (fun _ => True) x

/-- What never throws has no text of an exception. -/
theorem NeverThrows.ne {α : Type} {x : Except Fault α} (hx : NeverThrows x) {msg : String} :
    x ≠ .error (.thrown msg) :=
  hx.ne_error (e := .thrown msg) trivial

/-! ## A cell -/

/-- Storing a value of variable length throws nothing of the engine. -/
theorem neverThrows_getVariableValue (h : OdbcHandleStmt ρ V) (target : Addr) (len : ℤ) (ind : Addr)
    (val : List UInt8) (charSize : ℕ) (nullTerminate : Bool) :
    NeverThrows (h.getVariableValue col target len ind val charSize nullTerminate) := by
  unfold getVariableValue
  dsimp only
  repeat' split
  all_goals first
    | trivial
    | exact id

theorem neverThrows_deref (f : OdbcFetch ρ) : NeverThrows f.deref := by
  unfold OdbcFetch.deref
  split
  · exact id
  · split
    · trivial
    · exact id

/-- Neither does looking for a value. -/
theorem neverThrows_getValue (h : OdbcHandleStmt ρ V) : NeverThrows (h.getValue E col) := by
  unfold getValue
  split
  · trivial
  · refine (neverThrows_deref _).bind fun c _ => ?_
    split
    · exact id
    · split
      · exact id
      · trivial

theorem neverThrows_columnCount (h : OdbcHandleStmt ρ V) : NeverThrows h.columnCount := by
  unfold columnCount
  split
  · exact id
  · split
    · exact id
    · trivial

/-- A read throws exactly if it comes to a value that is not null and whose conversion throws. -/
theorem getDataStmtResult_throws_iff {num : ℕ} {t : CType} {target : Addr} {len : ℤ} {ind : Addr} :
    (∃ msg, h.getDataStmtResult E num t target len ind = .error (.thrown msg)) ↔
      ReadsValue t target ∧ ∃ v, h.getValue E (num - 1) = .ok (some v) ∧ E.isNull v = false ∧
        E.Throws t len (E.atUtcOffset v) := by
  unfold getDataStmtResult ReadsValue
  dsimp only
  split
  · next hnone =>
    refine iff_of_false (by simp) fun hreads => hreads.1 hnone
  · next hreads =>
    rw [and_iff_right hreads]
    rcases hval : h.getValue E (num - 1) with e | val
    · refine iff_of_false ?_ (by simp)
      rintro ⟨msg, hx⟩
      cases hx
      exact (neverThrows_getValue h).ne hval
    · simp only [bind, Except.bind]
      rcases val with _ | v
      · by_cases hind : ind = 0
        · simp [hind]
        · simp [hind]
      cases hnull : E.isNull v with
      | true =>
        have hval : (some v).filter (fun v => ¬E.isNull v) = none := by simp [Option.filter, hnull]
        simp only [hval]
        by_cases hind : ind = 0
        · simp [hind, hnull]
        · simp [hind, hnull]
      | false =>
        have hval : (some v).filter (fun v => ¬E.isNull v) = some v := by simp [hnull]
        have hone : (∃ v', Except.ok (ε := Fault) (some v) = .ok (some v') ∧ E.isNull v' = false ∧
            E.Throws t len (E.atUtcOffset v')) ↔ E.Throws t len (E.atUtcOffset v) := by
          refine ⟨?_, fun hthrows => ⟨v, rfl, hnull, hthrows⟩⟩
          rintro ⟨v', heq, -, hthrows⟩
          obtain rfl := Option.some.inj (Except.ok.inj heq)
          exact hthrows
        rw [hone]
        simp only [hval]
        have hget : ∀ bytes size nul msg,
            h.getVariableValue (num - 1) target len ind bytes size nul ≠
            .error (.thrown msg) := fun bytes size nul msg =>
          (neverThrows_getVariableValue h target len ind bytes size nul).ne
        unfold Engine.Throws
        -- the type that is resolved decides on the conversion
        generalize (if t = .default then resolveDefaultType (E.typeId (E.atUtcOffset v)) len
          else t) = r
        by_cases hwchar : r = .wchar
        · subst hwchar
          cases E.wcharBytes (E.atUtcOffset v) <;> simp [hget]
        by_cases hbinary : r = .binary
        · subst hbinary
          cases E.binaryBytes (E.atUtcOffset v) <;> simp [hget]
        by_cases hchar : r = .char
        · subst hchar
          cases E.charBytes (E.atUtcOffset v) <;> simp [hget]
        -- none of these three, so that the value is cast
        cases hsize : r.storedSize with
        | none => simp [hsize, setDiagnosticRecord]
        | some size =>
          rcases hcast : E.castAs r (E.atUtcOffset v) with (records | msg) | bytes
          · simp [hsize, hcast]
          · simp [hsize, hcast]
          · simp [hsize, hcast]

/-- A cell that is delivered throws just if its conversion does. -/
theorem deliverCell_throws_iff {d : Delivery ρ V} :
    (∃ msg, deliverCell E place rowIdx d col = .error (.thrown msg)) ↔
      CellThrows E d.h place rowIdx col := by
  unfold deliverCell CellThrows
  cases hb : d.h.boundCols[col]? with
  | none => simp
  | some b =>
    dsimp only
    split
    · next htakes =>
      have hread : (∃ msg, d.h.getDataStmtResult E (col + 1) b.type (place.valAddr b rowIdx) b.len
          (place.lenAddr b rowIdx) = .error (.thrown msg)) ↔ _ := getDataStmtResult_throws_iff
      rw [Nat.add_sub_cancel] at hread
      have hbind : (∃ msg, (d.h.getDataStmtResult E (col + 1) b.type (place.valAddr b rowIdx) b.len
          (place.lenAddr b rowIdx) >>= fun got => Except.ok (ε := Fault)
            { d with
              ret := got.ret, h := got.h
              writes := d.writes ++ got.writes ++
                (if got.ret.succeeded then [] else got.h.setRowStatus rowIdx .error) }) =
          .error (.thrown msg)) ↔ ∃ msg, d.h.getDataStmtResult E (col + 1) b.type
            (place.valAddr b rowIdx) b.len (place.lenAddr b rowIdx) = .error (.thrown msg) := by
        cases d.h.getDataStmtResult E (col + 1) b.type (place.valAddr b rowIdx) b.len
          (place.lenAddr b rowIdx) with
        | error e => simp [bind, Except.bind]
        | ok got => simp [bind, Except.bind]
      rw [← exists_comm]
      simp only [Option.some.injEq]
      exact (hbind.trans hread).trans ⟨fun ⟨hreads, v, hv⟩ => ⟨v, b, rfl, htakes, hreads, hv⟩,
        fun ⟨v, b', heq, _, hreads, hv⟩ => by subst heq; exact ⟨hreads, v, hv⟩⟩
    · next htakes =>
      refine iff_of_false (by simp) ?_
      rintro ⟨b', v, heq, htakes', -⟩
      obtain rfl := Option.some.inj heq
      exact htakes htakes'

/-! ## The loops -/

/-- The same cursor has the same values. -/
theorem SameCursor.getValue {h h' : OdbcHandleStmt ρ V} (hs : SameCursor h h') :
    h'.getValue E col = h.getValue E col := by
  obtain ⟨last, diag, rfl⟩ := hs
  rfl

/-- Reading other cells does not change whether a cell throws. -/
theorem SameCursor.cellThrows_iff {h h' : OdbcHandleStmt ρ V} (hs : SameCursor h h') :
    CellThrows E h' place rowIdx col ↔ CellThrows E h place rowIdx col := by
  unfold CellThrows
  rw [hs.boundCols, hs.getValue]

/-- A row that throws does so at one of its cells. -/
theorem cellThrows_of_deliverRow {d : Delivery ρ V} {msg : String}
    (hx : deliverRow E place d rowIdx = .error (.thrown msg)) :
    ∃ n, d.h.columnCount = .ok n ∧ ∃ col < n, CellThrows E (d.h.ahead 1) place rowIdx col := by
  rw [deliverRow_eq] at hx
  rcases Outcome.bind_eq_error.1 hx with hc | ⟨c, -, hx⟩
  · exact absurd hc (neverThrows_deref _).ne
  rcases Outcome.bind_eq_error.1 hx with hn | ⟨n, hn, hx⟩
  · exact absurd hn (neverThrows_columnCount _).ne
  obtain ⟨col, d', ⟨cols, cols', hcols, hd'⟩, hcell⟩ := Outcome.foldlM_eq_error _ hx
  have hafter := afterCols_prefix hcols hd'
  obtain ⟨rfl, hlt⟩ := pre_of_range hcols
  exact ⟨n, hn, _, hlt, hafter.same.cellThrows_iff.1 (deliverCell_throws_iff.1 ⟨msg, hcell⟩)⟩

/-- In a row that is delivered no cell throws. -/
theorem not_cellThrows_of_deliverRow {d d' : Delivery ρ V} {n : ℕ}
    (hx : deliverRow E place d rowIdx = .ok d') (hn : d.h.columnCount = .ok n) (hcol : col < n) :
    ¬CellThrows E (d.h.ahead 1) place rowIdx col := by
  rw [deliverRow_eq] at hx
  obtain ⟨c, -, hx⟩ := Outcome.bind_eq_ok.1 hx
  obtain ⟨n', hn', hx⟩ := Outcome.bind_eq_ok.1 hx
  obtain rfl : n = n' := Except.ok.inj (hn.symm.trans hn')
  obtain ⟨cols, cols', hcols⟩ := List.append_of_mem (List.mem_range.2 hcol)
  rw [hcols] at hx
  obtain ⟨d₁, d₂, hd₁, hcell⟩ := Outcome.turn_of_foldlM hx
  have hafter := afterCols_prefix hcols hd₁
  intro hthrows
  obtain ⟨msg, herror⟩ := deliverCell_throws_iff.2 (hafter.same.cellThrows_iff.2 hthrows)
  rw [hcell] at herror
  cases herror

/-- The rows of a rowset are numbered from the first one behind the cursor. -/
theorem pre_of_range' {start m i : ℕ} {pre post : List ℕ}
    (hsplit : List.range' start m = pre ++ i :: post) :
    i = start + pre.length ∧ pre.length < m := by
  have hlen := congrArg List.length hsplit
  simp only [List.length_range', List.length_append, List.length_cons] at hlen
  have hlt : pre.length < m := by omega
  have hget := congrArg (fun l : List ℕ => l[pre.length]?) hsplit
  exact ⟨by simpa [List.getElem?_range' hlt] using hget.symm, hlt⟩

/-- A loop over the rows that throws does so at one of the cells of the rowset. -/
theorem rowsetThrows_of_deliverRows {msg : String} (hb : h.boundCols ≠ [])
    (hx : h.deliverRows E h.place = .error (.thrown msg)) : RowsetThrows E h := by
  unfold deliverRows at hx
  rcases Outcome.bind_eq_error.1 hx with hc | ⟨c, hc, hx⟩
  · exact absurd hc (neverThrows_deref _).ne
  obtain ⟨row, d, ⟨rows, rows', hrows, hd⟩, hrow⟩ := Outcome.foldlM_eq_error _ hx
  obtain ⟨n, hn, col, hcol, hthrows⟩ := cellThrows_of_deliverRow hrow
  have ha := afterRows_prefix hrows hd
  obtain ⟨rfl, hlt⟩ := pre_of_range' hrows
  have hsame := ha.same.ahead 1
  rw [ahead_ahead] at hsame
  exact ⟨hb, c, n, hc, ha.columnCount.symm.trans hn, rows.length, by rwa [length_rowset], col, hcol,
    hsame.cellThrows_iff.1 hthrows⟩

/-- In a rowset that is delivered no cell throws. -/
theorem not_rowsetThrows_of_deliverRows {d : Delivery ρ V}
    (hx : h.deliverRows E h.place = .ok d) : ¬RowsetThrows E h := by
  rintro ⟨-, c, n, hc, hn, k, hk, col, hcol, hthrows⟩
  obtain ⟨c', hc', hx⟩ := Outcome.bind_eq_ok.1 hx
  obtain rfl : c = c' := Except.ok.inj (hc.symm.trans hc')
  rw [length_rowset] at hk
  have hmem : h.firstRow + k ∈ List.range' h.firstRow (h.lastRow c - h.firstRow) :=
    List.mem_range'_1.2 ⟨by omega, by omega⟩
  obtain ⟨rows, rows', hrows⟩ := List.append_of_mem hmem
  rw [hrows] at hx
  obtain ⟨d₁, d₂, hd₁, hrow⟩ := Outcome.turn_of_foldlM hx
  have ha := afterRows_prefix hrows hd₁
  obtain rfl : k = rows.length := by
    have := (pre_of_range' hrows).1
    omega
  have hsame := ha.same.ahead 1
  rw [ahead_ahead] at hsame
  exact not_cellThrows_of_deliverRow hrow (ha.columnCount.trans hn) hcol
    (hsame.cellThrows_iff.2 hthrows)

/-! ## The fetch -/

/-- Moving the cursor throws nothing of the engine. -/
theorem neverThrows_fetchNext (h : OdbcHandleStmt ρ V) : NeverThrows h.fetchNext := by
  unfold fetchNext
  split
  · trivial
  · split
    · exact id
    · dsimp only
      split <;> trivial

/-- Neither does looking for a row. -/
theorem neverThrows_absoluteLoop (n : ℕ) (h : OdbcHandleStmt ρ V) (off : ℤ) :
    NeverThrows (absoluteLoop n h off) := by
  induction n generalizing h off with
  | zero => trivial
  | succ n ih =>
    have hensure : NeverThrows h.ensureChunk := by
      unfold ensureChunk
      split
      · exact neverThrows_fetchNext h
      · trivial
    unfold absoluteLoop
    refine hensure.bind fun p _ => (neverThrows_deref _).bind fun cur _ => ?_
    dsimp only
    -- only the last but one branch goes on to another chunk
    repeat' split
    any_goals trivial
    refine (neverThrows_fetchNext _).bind fun p _ => ?_
    split
    · trivial
    · exact (neverThrows_deref _).bind fun next _ => ih _ _

/-- The cursor moves without an exception. -/
theorem neverThrows_fetchNextChunk (h : OdbcHandleStmt ρ V) (o : FetchOrientation) (off : ℤ) :
    NeverThrows (h.fetchNextChunk o off) := by
  unfold fetchNextChunk
  split
  · trivial
  · cases o with
    | next =>
      dsimp only
      split
      · split
        · trivial
        · exact neverThrows_fetchNext _
      · trivial
    | prior =>
      show NeverThrows h.setPriorCurrentChunk
      unfold setPriorCurrentChunk
      dsimp only
      split
      · split
        · trivial
        · split
          · exact id
          · trivial
      · trivial
    | first =>
      show NeverThrows h.setFirstCurrentChunk
      unfold setFirstCurrentChunk
      dsimp only
      split
      · exact neverThrows_fetchNext _
      · trivial
    | absolute => exact neverThrows_absoluteLoop _ _ _
    | other => trivial

theorem neverThrows_increaseRowCount (h : OdbcHandleStmt ρ V) : NeverThrows h.increaseRowCount := by
  unfold increaseRowCount
  refine (neverThrows_deref _).bind fun c _ => ?_
  dsimp only
  split <;> trivial

/-- A delivery throws what one of its cells throws. -/
theorem rowsetThrows_of_deliver {msg : String} (hx : h.deliver E = .error (.thrown msg)) :
    RowsetThrows E h := by
  by_cases hb : h.boundCols = []
  · have hunbound : NeverThrows h.fetchUnbound :=
      (neverThrows_deref _).bind fun c _ =>
        (neverThrows_increaseRowCount _).bind fun h' _ => trivial
    unfold deliver at hx
    rw [if_pos (by simp [hb])] at hx
    exact absurd hx hunbound.ne
  rw [deliver_of_bound hb] at hx
  rcases Outcome.bind_eq_error.1 hx with hx | ⟨d, -, hx⟩
  · suffices hrows : h.deliverRows E h.place = .error (.thrown msg) from
      rowsetThrows_of_deliverRows hb hrows
    unfold bound at hx
    unfold place
    -- both orientations run the same loop, and do not throw before or after it
    split at hx
    · next hcol =>
      rw [if_pos hcol]
      rcases Outcome.bind_eq_error.1 hx with hc | ⟨c, -, hx⟩
      · exact absurd hc (neverThrows_deref _).ne
      · obtain hrows | ⟨d, -, hx⟩ := Outcome.bind_eq_error.1 hx
        · exact hrows
        · cases hx
    · next hrow =>
      rw [if_neg hrow]
      rcases Outcome.bind_eq_error.1 hx with hc | ⟨c, -, hx⟩
      · exact absurd hc (neverThrows_deref _).ne
      · obtain hrows | ⟨d, -, hx⟩ := Outcome.bind_eq_error.1 hx
        · exact hrows
        · cases hx
  · split at hx
    · cases hx
    · rcases Outcome.bind_eq_error.1 hx with hcount | ⟨h', -, hx⟩
      · exact absurd hcount (neverThrows_increaseRowCount _).ne
      · cases hx

/-- A delivery that returns has no cell that throws. -/
theorem not_rowsetThrows_of_deliver {d : Delivery ρ V} (hx : h.deliver E = .ok d) :
    ¬RowsetThrows E h := by
  by_cases hb : h.boundCols = []
  · exact fun hthrows => hthrows.1 hb
  rw [deliver_of_bound hb] at hx
  obtain ⟨d₁, hd₁, -⟩ := Outcome.bind_eq_ok.1 hx
  obtain ⟨d₀, n, hd₀, -⟩ := bound_cases hd₁
  exact not_rowsetThrows_of_deliverRows hd₀

/-- A fetch that is left by an exception is left at one of its cells. -/
theorem someCellThrows_of_fetchStmtResult {o : FetchOrientation} {off : ℤ} {msg : String}
    (hx : h.fetchStmtResult E o off = .error (.thrown msg)) : SomeCellThrows E h o off := by
  unfold fetchStmtResult at hx
  split at hx
  · cases hx
  · next hopen =>
    rcases Outcome.bind_eq_error.1 hx with hmove | ⟨⟨ret, h'⟩, hmove, hx⟩
    · exact absurd hmove (neverThrows_fetchNextChunk _ _ _).ne
    · cases ret with
      | success => exact ⟨not_not.1 hopen, h', hmove, rowsetThrows_of_deliver hx⟩
      | _ => cases hx

/-- In a fetch that returns no cell throws. -/
theorem not_someCellThrows {o : FetchOrientation} {off : ℤ} {d : Delivery ρ V}
    (hx : h.fetchStmtResult E o off = .ok d) : ¬SomeCellThrows E h o off := by
  rintro ⟨hopen, h', hmove, hthrows⟩
  rw [fetchStmtResult_of_open hopen hmove] at hx
  exact not_rowsetThrows_of_deliver hx hthrows

/-- Unless a fetch follows a pointer or an index that is not there, it returns exactly if no cell of
it throws. -/
theorem fetchStmtResult_returns_iff {o : FetchOrientation} {off : ℤ}
    (hx : ∀ e, h.fetchStmtResult E o off = .error e → e.IsThrown) :
    (∃ d, h.fetchStmtResult E o off = .ok d) ↔ ¬SomeCellThrows E h o off := by
  refine ⟨fun ⟨d, hd⟩ => not_someCellThrows hd, fun hno => ?_⟩
  cases hfetch : h.fetchStmtResult E o off with
  | ok d => exact ⟨d, rfl⟩
  | error e =>
    have hthrown := hx e hfetch
    cases e with
    | thrown msg => exact absurd (someCellThrows_of_fetchStmtResult hfetch) hno
    | _ => exact hthrown.elim

end OdbcHandleStmt

end HaybarnOdbc
