import HaybarnOdbc.Api
import HaybarnOdbc.Lib.Run

/-!
# The first read after a positioning call

How much of a cell was returned is noted for the column and the number of the row in its chunk,
and only a chunk from the engine clears the note. So a fetch that comes to a row with the number
of the noted one, of this chunk or of another, reads from where the last read of that number
stopped.

A run of calls carries the columns that were read since the cursor was positioned
(`readSince`). If no fetch of a run comes to a row with the noted number, then whichever column
is read first, by `SQLGetData` or by a bound delivery, is read from its first byte
(`firstReads_fresh`).
-/

namespace HaybarnOdbc

variable {ρ V : Type}

namespace OdbcHandleStmt

/-! ## Where a fetch comes to -/

/-- The handle with which a call comes to `Fetch`, with the orientation and the offset. -/
def comesToFetch (h : OdbcHandleStmt ρ V) :
    Call ρ V → Option (OdbcHandleStmt ρ V × FetchOrientation × ℤ)
  | .fetch source result =>
    match h.convertHSTMTPrepared with
    | (.success, h) =>
      if h.retrieveData then
        match h.executeBeforeFetch source result with
        | .ok x => if x.ret = .success ∧ x.h.opened then some (x.h, .next, 0) else none
        | .error _ => none
      else none
    | _ => none
  | .fetchScroll orientation fetchOffset =>
    if orientation = .other then none
    else
      match h.convertHSTMTResult with
      | .ok (.success, h) => if h.opened then some (h, orientation, fetchOffset - 1) else none
      | _ => none
  | _ => none

/-- The handle once the cursor is positioned, before anything is read. -/
def landing (h : OdbcHandleStmt ρ V) (call : Call ρ V) : Option (OdbcHandleStmt ρ V) :=
  match h.comesToFetch call with
  | some (h, orientation, fetchOffset) =>
    match h.fetchNextChunk orientation fetchOffset with
    | .ok (.success, h) => some h
    | _ => none
  | none => none

/-- Whether the bound columns take a column. -/
def takesCol (h : OdbcHandleStmt ρ V) (col : ℕ) : Bool := (h.boundCols[col]?).any h.place.takes

/-- A positioned fetch comes to the row with the number of a noted cell : it leaves the cursor on
such a row, or it delivers one and the noted column with it. -/
def ComesTo (h : OdbcHandleStmt ρ V) (c : DataChunk ρ) (noted : LastFetched) : Prop :=
  if h.boundCols = [] then noted.rowIdx = h.odbcFetcher.chunkRow + h.rowsetSize
  else noted.rowIdx = h.odbcFetcher.chunkRow + (h.rowset c).length ∨
    (∃ col : ℕ, noted.colIdx = col ∧ h.takesCol col = true) ∧
      h.odbcFetcher.chunkRow < noted.rowIdx ∧
      noted.rowIdx < h.odbcFetcher.chunkRow + (h.rowset c).length

/-- Nothing is noted of a row that the fetch comes to. -/
def NotedElsewhere (h : OdbcHandleStmt ρ V) : Prop :=
  h.odbcFetcher.lastFetched.length = 0 ∨
    ∀ c, h.odbcFetcher.deref = .ok c → ¬h.ComesTo c h.odbcFetcher.lastFetched

/-- The columns that a delivery takes. -/
def takenCols (h : OdbcHandleStmt ρ V) : List ℕ :=
  match h.columnCount with
  | .ok n => (List.range n).filter h.takesCol
  | .error _ => []

/-- The columns that a positioned fetch delivers of the row that it leaves the cursor on. -/
def deliveredCols (h : OdbcHandleStmt ρ V) : List ℕ :=
  match h.odbcFetcher.deref with
  | .ok c => if h.boundCols = [] ∨ (h.rowset c).length = 0 then [] else h.takenCols
  | .error _ => []

/-- The columns that were read since the cursor was positioned, after a call. There are none to
tell if the call is a fetch that fails, or one that ends the result. -/
def readSince (h : OdbcHandleStmt ρ V) (call : Call ρ V) (ret : SqlReturn)
    (read : Option (List ℕ)) : Option (List ℕ) :=
  let positioned := if ret.succeeded then (h.landing call).map deliveredCols else none
  match call with
  | .fetch .. => if h.retrieveData then positioned else read
  | .fetchScroll .. => positioned
  | .getData num .. => read.map ((num - 1) :: ·)
  | .prepare .. | .execute .. | .execDirect .. | .moreResults .. | .close => none
  | _ => read

/-! ## The cells of a delivery -/

/-- The delivery at the start of the loop over the columns of the next row. -/
def Delivery.onRow (d : Delivery ρ V) (c : DataChunk ρ) (rowIdx : ℕ) : Delivery ρ V :=
  { d with
    h := d.h.ahead 1
    rows := d.rows ++ (c.rows[(d.h.ahead 1).odbcFetcher.chunkRow.toNat]?).toList
    writes := d.writes ++ (d.h.ahead 1).setRowStatus rowIdx .success }

/-- A row is delivered column by column. -/
theorem deliverRow_eq (E : Engine ρ V) (place : CellPlace) (d : Delivery ρ V) (rowIdx : ℕ) :
    deliverRow E place d rowIdx = d.h.odbcFetcher.deref >>= fun c => (d.h.ahead 1).columnCount >>=
      fun n => (List.range n).foldlM (deliverCell E place rowIdx) (d.onRow c rowIdx) := rfl

/-- A delivery reads each bound cell from its first byte : whenever it comes to the cell of a
column that it takes, nothing of the cell was returned. -/
def DeliversFresh (E : Engine ρ V) (h : OdbcHandleStmt ρ V) : Prop :=
  ∀ c rowIdx d n col d', h.odbcFetcher.deref = .ok c → h.columnCount = .ok n →
    Outcome.ComesTo (deliverRow E h.place) ⟨.success, h, [], []⟩
      (List.range' h.firstRow (h.lastRow c - h.firstRow)) rowIdx d →
    Outcome.ComesTo (deliverCell E h.place rowIdx) (d.onRow c rowIdx) (List.range n) col d' →
    h.takesCol col = true → d'.h.FreshOffset col

/-- A column is read from its start if nothing is noted, or another cell is. -/
theorem freshOffset_iff {h : OdbcHandleStmt ρ V} {col : ℕ} :
    h.FreshOffset col ↔ h.odbcFetcher.lastFetched.length = 0 ∨
      h.odbcFetcher.lastFetched.colIdx ≠ col ∨
      h.odbcFetcher.lastFetched.rowIdx ≠ h.odbcFetcher.chunkRow := by
  unfold FreshOffset setLastFetchedVariableVal
  dsimp only
  split_ifs with hother
  · exact iff_of_true rfl (.inr hother)
  · exact ⟨.inl, fun hfresh => hfresh.resolve_right hother⟩

/-- A delivery after `k` columns of the row that `h` is on : what is noted is still what `h`
notes, or one of these columns. -/
structure AfterCols (h : OdbcHandleStmt ρ V) (takes : ℕ → Bool) (k : ℕ) (h' : OdbcHandleStmt ρ V) :
    Prop where
  same : SameCursor h h'
  noted : h'.odbcFetcher.lastFetched = h.odbcFetcher.lastFetched ∨
    h'.odbcFetcher.lastFetched.rowIdx = h.odbcFetcher.chunkRow ∧
      ∃ col < k, takes col = true ∧ h'.odbcFetcher.lastFetched.colIdx = col

section Delivery

variable {E : Engine ρ V} {h : OdbcHandleStmt ρ V} {rowIdx n : ℕ}

theorem SameCursor.chunkRow {h h' : OdbcHandleStmt ρ V} (hh : SameCursor h h') :
    h'.odbcFetcher.chunkRow = h.odbcFetcher.chunkRow := by
  obtain ⟨last, diag, rfl⟩ := hh
  rfl

theorem SameCursor.boundCols {h h' : OdbcHandleStmt ρ V} (hh : SameCursor h h') :
    h'.boundCols = h.boundCols := by
  obtain ⟨last, diag, rfl⟩ := hh
  rfl

/-- The same cursor has as many columns. -/
theorem SameCursor.columnCount {h h' : OdbcHandleStmt ρ V} (hh : SameCursor h h') :
    h'.columnCount = h.columnCount := by
  obtain ⟨last, diag, rfl⟩ := hh
  rfl

/-- One more column. -/
theorem AfterCols.deliverCell {place : CellPlace} {d d' : Delivery ρ V} {col : ℕ}
    (ha : AfterCols h (fun col => (h.boundCols[col]?).any place.takes) col d.h)
    (hx : deliverCell E place rowIdx d col = .ok d') :
    AfterCols h (fun col => (h.boundCols[col]?).any place.takes) (col + 1) d'.h := by
  have hsame := ha.same.trans (deliverCell_cases hx).1
  have hmore : ∀ {h' : OdbcHandleStmt ρ V}, h'.odbcFetcher.lastFetched =
    d.h.odbcFetcher.lastFetched →
      SameCursor h h' → AfterCols h (fun col => (h.boundCols[col]?).any place.takes)
        (col + 1) h' := by
    intro h' hlast hsame'
    refine ⟨hsame', ?_⟩
    rw [hlast]
    refine ha.noted.imp_right fun ⟨hrow, col', hlt, htakes, hcol⟩ => ?_
    exact ⟨hrow, col', by omega, htakes, hcol⟩
  unfold OdbcHandleStmt.deliverCell at hx
  split at hx
  · cases hx
  · next c hc =>
    split at hx
    · next htakes =>
      obtain ⟨got, hgot, hx⟩ := Outcome.bind_eq_ok.1 hx
      cases hx
      rcases lastFetched_getDataStmtResult hgot with hlast | ⟨hcol, hrow⟩
      · exact hmore hlast hsame
      · refine ⟨hsame, .inr ⟨hrow.trans ha.same.chunkRow, col, by omega, ?_, hcol⟩⟩
        rw [← ha.same.boundCols, hc]
        exact htakes
    · cases hx
      exact hmore rfl hsame

theorem pre_of_range {n i : ℕ} {pre post : List ℕ} (hsplit : List.range n = pre ++ i :: post) :
    i = pre.length ∧ pre.length < n := by
  have hlen := congrArg List.length hsplit
  simp only [List.length_range, List.length_append, List.length_cons] at hlen
  have hlt : pre.length < n := by omega
  have hget := congrArg (fun l : List ℕ => l[pre.length]?) hsplit
  exact ⟨by simpa [List.getElem?_range hlt] using hget.symm, hlt⟩

/-- The columns of a row, as far as the loop is. -/
theorem afterCols_prefix {place : CellPlace} {d d' : Delivery ρ V} {done post : List ℕ}
    (hsplit : List.range n = done ++ post)
    (hx : done.foldlM (deliverCell E place rowIdx) d = .ok d') :
    AfterCols d.h (fun col => (d.h.boundCols[col]?).any place.takes) done.length d'.h := by
  refine Outcome.foldlM_prefix (fun pre d' =>
    AfterCols d.h (fun col => (d.h.boundCols[col]?).any place.takes) pre.length d'.h) (List.range n)
    ?_ ⟨.refl _, .inl rfl⟩ hsplit hx
  intro pre col post d₁ d₂ hpre ha hcell
  obtain rfl := (pre_of_range hpre).1
  rw [List.length_append, List.length_singleton]
  exact ha.deliverCell hcell

/-- A delivery after `k` rows : what is noted is still what `h` notes, or a taken column of
one of these rows. -/
structure AfterRows (h : OdbcHandleStmt ρ V) (k : ℕ) (h' : OdbcHandleStmt ρ V) : Prop where
  same : SameCursor (h.ahead k) h'
  noted : h'.odbcFetcher.lastFetched = h.odbcFetcher.lastFetched ∨
    h'.odbcFetcher.lastFetched.rowIdx ≤ h'.odbcFetcher.chunkRow ∧
      ∃ col ∈ h.takenCols, h'.odbcFetcher.lastFetched.colIdx = col

/-- The columns that are taken are columns of the result. -/
theorem mem_takenCols {col : ℕ} (hn : h.columnCount = .ok n) :
    col ∈ h.takenCols ↔ col < n ∧ h.takesCol col = true := by
  rw [takenCols, hn]
  simp

theorem AfterRows.columnCount {h' : OdbcHandleStmt ρ V} {k : ℕ} (ha : AfterRows h k h') :
    h'.columnCount = h.columnCount := ha.same.columnCount

/-- One more row. -/
theorem AfterRows.deliverRow {d d' : Delivery ρ V} {k : ℕ} (ha : AfterRows h k d.h)
    (hx : deliverRow E h.place d rowIdx = .ok d') : AfterRows h (k + 1) d'.h := by
  rw [deliverRow_eq] at hx
  obtain ⟨c, -, hx⟩ := Outcome.bind_eq_ok.1 hx
  obtain ⟨n, hn, hx⟩ := Outcome.bind_eq_ok.1 hx
  have hcols := afterCols_prefix (List.append_nil _).symm hx
  have hsame : SameCursor (h.ahead (k + 1)) d'.h := by
    rw [← ahead_ahead]
    exact (ha.same.ahead 1).trans hcols.same
  have hrow : d'.h.odbcFetcher.chunkRow = d.h.odbcFetcher.chunkRow + 1 := hcols.same.chunkRow
  refine ⟨hsame, ?_⟩
  rcases hcols.noted with hlast | ⟨hnoted, col, hlt, htakes, hcol⟩
  · rw [hlast, hrow]
    exact ha.noted.imp_right fun ⟨hle, hmem⟩ => ⟨Int.le_trans hle (by omega), hmem⟩
  · refine .inr ⟨Int.le_of_eq (hnoted.trans hrow.symm), col, ?_, hcol⟩
    rw [mem_takenCols (ha.columnCount.symm.trans hn)]
    have hbound : (d.onRow c rowIdx).h.boundCols = h.boundCols := ha.same.boundCols
    rw [hbound] at htakes
    exact ⟨by simpa using hlt, htakes⟩

/-- The rows, as far as the loop is. -/
theorem afterRows_prefix {start m : ℕ} {d : Delivery ρ V} {done post : List ℕ}
    (hsplit : List.range' start m = done ++ post)
    (hx : done.foldlM (deliverRow E h.place) ⟨.success, h, [], []⟩ = .ok d) :
    AfterRows h done.length d.h := by
  refine Outcome.foldlM_prefix (fun pre d => AfterRows h pre.length d.h) (List.range' start m)
    ?_ ⟨by simpa using SameCursor.refl h, .inl rfl⟩ hsplit hx
  intro pre row post d₁ d₂ _ ha hrow
  rw [List.length_append, List.length_singleton]
  exact ha.deliverRow hrow

/-- A delivery whose rows are none of the noted one reads each cell from its first byte. -/
theorem NotedElsewhere.deliversFresh (hn : h.NotedElsewhere) (hb : h.boundCols ≠ []) :
    DeliversFresh E h := by
  rintro c rowIdx d n col d' hc hcount ⟨rows, rows', hrows, hd⟩ ⟨cols, cols', hcols, hd'⟩ htakes
  have hlen := congrArg List.length hrows
  simp only [List.length_range', List.length_append, List.length_cons] at hlen
  have ha := afterRows_prefix hrows hd
  have hcell := afterCols_prefix hcols hd'
  obtain ⟨rfl, -⟩ := pre_of_range hcols
  have hrow : d.h.odbcFetcher.chunkRow = h.odbcFetcher.chunkRow + rows.length := ha.same.chunkRow
  have hrow' : d'.h.odbcFetcher.chunkRow = d.h.odbcFetcher.chunkRow + 1 := hcell.same.chunkRow
  rw [freshOffset_iff]
  rcases hcell.noted with hlast | ⟨-, col', hlt, -, hcol⟩
  · -- nothing of this row is noted yet
    rw [hlast]
    rcases ha.noted with hlast | ⟨hle, -⟩
    · rw [show (d.onRow c rowIdx).h.odbcFetcher.lastFetched = h.odbcFetcher.lastFetched from hlast]
      rcases hn with hzero | hother
      · exact .inl hzero
      · refine .inr (Decidable.or_iff_not_imp_left.2 fun hcol heq => hother c hc ?_)
        have hle := length_rowset h c
        rw [ComesTo, if_neg hb]
        rcases Nat.lt_or_ge (rows.length + 1) (h.rowset c).length with hlt | hge
        · exact .inr ⟨⟨_, not_not.1 hcol, htakes⟩, by omega, by omega⟩
        · exact .inl (by omega)
    · refine .inr (.inr ?_)
      have hle : (d.onRow c rowIdx).h.odbcFetcher.lastFetched.rowIdx ≤
        d.h.odbcFetcher.chunkRow := hle
      omega
  · exact .inr (.inl (by omega))

/-- After a delivery, nothing of the row that the cursor is on was returned of the columns that
were not delivered. -/
theorem NotedElsewhere.freshOffset (hn : h.NotedElsewhere) {d : Delivery ρ V}
    (hx : h.deliver E = .ok d) {col : ℕ} (hcol : col ∉ h.deliveredCols) : d.h.FreshOffset col := by
  rw [freshOffset_iff]
  by_cases hb : h.boundCols = []
  · have hderef : ∃ c, h.odbcFetcher.deref = .ok c := by
      unfold deliver at hx
      rw [if_pos (by simp [hb])] at hx
      obtain ⟨c, hc, -⟩ := Outcome.bind_eq_ok.1 hx
      exact ⟨c, hc⟩
    obtain ⟨c, hc⟩ := hderef
    obtain ⟨d', hd', -, -, -, hadv, hlast⟩ := deliver_unbound (E := E) hb hc
    obtain rfl := Except.ok.inj (hx.symm.trans hd')
    rw [hlast, hadv.chunkRow]
    refine hn.imp_right fun hother => .inr fun heq => hother c hc ?_
    rw [ComesTo, if_pos hb, heq]
  · rw [deliver_of_bound hb] at hx
    obtain ⟨d₁, hd₁, hx⟩ := Outcome.bind_eq_ok.1 hx
    obtain ⟨d₀, n, hd₀, rfl⟩ := bound_cases hd₁
    -- the row count plays no part
    have hafter : d.h.odbcFetcher.lastFetched = d₀.h.odbcFetcher.lastFetched ∧
        d.h.odbcFetcher.chunkRow = d₀.h.odbcFetcher.chunkRow := by
      split at hx
      · cases hx
        simp
      · obtain ⟨h₂, hcount, hx⟩ := Outcome.bind_eq_ok.1 hx
        cases hx
        obtain ⟨count, rfl⟩ := increaseRowCount_cases hcount
        simp
    rw [hafter.1, hafter.2]
    obtain ⟨c, hc, hrows⟩ := Outcome.bind_eq_ok.1 hd₀
    have hlen := length_rowset h c
    have hrun := afterRows_prefix (h := h) (List.append_nil _).symm hrows
    rw [List.length_range', ← hlen] at hrun
    have hrow : d₀.h.odbcFetcher.chunkRow = h.odbcFetcher.chunkRow + (h.rowset c).length :=
      hrun.same.chunkRow
    have hold : d₀.h.odbcFetcher.lastFetched = h.odbcFetcher.lastFetched →
        d₀.h.odbcFetcher.lastFetched.length = 0 ∨ d₀.h.odbcFetcher.lastFetched.colIdx ≠ col ∨
          d₀.h.odbcFetcher.lastFetched.rowIdx ≠ d₀.h.odbcFetcher.chunkRow := by
      intro hlast
      rw [hlast, hrow]
      refine hn.imp_right fun hother => .inr fun heq => hother c hc ?_
      rw [ComesTo, if_neg hb]
      exact .inl heq
    by_cases hzero : (h.rowset c).length = 0
    · rw [← hlen, hzero] at hrows
      cases hrows
      exact hold rfl
    · rcases hrun.noted with hlast | ⟨-, col', hmem, hcol'⟩
      · exact hold hlast
      · refine .inr (.inl fun heq => hcol ?_)
        rw [deliveredCols, hc]
        simp only [hb, hzero, or_self, if_false]
        obtain rfl : col' = col := by omega
        exact hmem

end Delivery

/-! ## The calls -/

section Calls

variable {E : Engine ρ V} {h h₀ h₁ : OdbcHandleStmt ρ V} {call : Call ρ V} {n : ℕ}
    {reply : Reply ρ V}

/-- An open result is fetched from. -/
theorem fetchStmtResult_of_opened (hopen : h.opened = true) {o : FetchOrientation} {off : ℤ} :
    h.fetchStmtResult E o off = h.fetch E o off := by
  simp [fetchStmtResult, hopen]

/-- A call that comes to a fetch answers what the fetch does. -/
theorem reply_of_comesToFetch {o : FetchOrientation} {off : ℤ}
    (hc : h.comesToFetch call = some (h₀, o, off)) (hx : h.perform E n call = some (.ok reply)) :
    ∃ d, h₀.fetch E o off = .ok d ∧ reply.ret = d.ret ∧ reply.h = d.h := by
  cases call with
  | fetch source result =>
    have hx : h.sqlFetch E source result = .ok reply := Option.some.inj hx
    simp only [comesToFetch] at hc
    split at hc
    · next h' hconv =>
      split_ifs at hc with hretrieve
      split at hc
      · next x hexec =>
        split_ifs at hc with hready
        obtain ⟨rfl, rfl, rfl⟩ := Option.some.inj hc
        have hdummy : h'.dummyFetch = (.needData, []) := by rw [dummyFetch, if_pos hretrieve]
        simp only [sqlFetch, hconv, hdummy, hexec, bind, Except.bind] at hx
        rw [if_neg (by simp [hready.1]), fetchStmtResult_of_opened hready.2] at hx
        cases hd : x.h.fetch E .next 0 with
        | error e => simp [hd] at hx
        | ok d =>
          rw [hd] at hx
          cases hx
          exact ⟨d, rfl, rfl, rfl⟩
      · cases hc
    · cases hc
  | fetchScroll orientation fetchOffset =>
    have hx : h.sqlFetchScroll E orientation fetchOffset = .ok reply := Option.some.inj hx
    simp only [comesToFetch] at hc
    split_ifs at hc with hother
    split at hc
    · next h' hconv =>
      split_ifs at hc with hopen
      obtain ⟨rfl, rfl, rfl⟩ := Option.some.inj hc
      rw [sqlFetchScroll, if_neg hother, hconv] at hx
      simp only [bind, Except.bind, fetchStmtResult_of_opened hopen] at hx
      cases hd : h₀.fetch E o (fetchOffset - 1) with
      | error e => simp [hd] at hx
      | ok d =>
        rw [hd] at hx
        cases hx
        exact ⟨d, rfl, rfl, rfl⟩
    · cases hc
  | _ => cases hc

/-- The reply of a call that positions the cursor is the delivery from there. -/
theorem reply_of_landing (hl : h.landing call = some h₁)
    (hx : h.perform E n call = some (.ok reply)) :
    ∃ d, h₁.deliver E = .ok d ∧ reply.ret = d.ret ∧ reply.h = d.h := by
  unfold landing at hl
  split at hl
  · next h₀ o off hc =>
    obtain ⟨d, hd, hret, hh⟩ := reply_of_comesToFetch hc hx
    obtain ⟨⟨ret, h'⟩, hmove, hd⟩ := Outcome.bind_eq_ok.1 hd
    rw [hmove] at hl
    split at hl
    · next h'' heq =>
      obtain ⟨rfl, rfl⟩ := Prod.mk.inj (Except.ok.inj heq)
      cases hl
      exact ⟨d, hd, hret, hh⟩
    · cases hl
  · cases hl

/-- The cursor is on the same row, and the same is noted. -/
def SameNote (h h' : OdbcHandleStmt ρ V) : Prop :=
  h'.odbcFetcher.lastFetched = h.odbcFetcher.lastFetched ∧
    h'.odbcFetcher.chunkRow = h.odbcFetcher.chunkRow

/-- The same note leaves the same offsets fresh. -/
theorem SameNote.freshOffset {h' : OdbcHandleStmt ρ V} (hs : SameNote h h') {col : ℕ}
    (hf : h.FreshOffset col) : h'.FreshOffset col := by
  rw [freshOffset_iff] at hf ⊢
  rw [hs.1, hs.2]
  exact hf

/-- A fetch that retrieves no data notes nothing. -/
theorem sameNote_fetch (hoff : h.retrieveData = false) {source : ParamSource V}
    {result : QueryResult ρ} (hx : h.sqlFetch E source result = .ok reply) :
    SameNote h reply.h := by
  rcases h.convertHSTMTPrepared_cases with ⟨stmt, -, -, hconv⟩ | ⟨diag, hconv⟩
  · unfold sqlFetch at hx
    rw [hconv] at hx
    have hoff' : ¬h.convertHSTMT.retrieveData = true := by
      rw [show h.convertHSTMT.retrieveData = h.retrieveData from rfl, hoff]
      simp
    have hdummy : ∀ ws, h.convertHSTMT.dummyFetch ≠ (.needData, ws) := by
      intro ws heq
      unfold dummyFetch at heq
      rw [if_neg hoff'] at heq
      dsimp only at heq
      split at heq <;> split at heq <;> simp at heq
    dsimp only at hx
    split at hx
    · next ws heq => exact absurd heq (hdummy ws)
    · cases hx
      exact ⟨rfl, rfl⟩
  · unfold sqlFetch at hx
    rw [hconv] at hx
    cases hx
    exact ⟨rfl, rfl⟩

/-- Neither does counting the rows. -/
theorem sameNote_rowCount {ptr : Addr} (hx : h.sqlRowCount ptr = .ok reply) :
    SameNote h reply.h := by
  obtain ⟨⟨ret, h'⟩, hconv, hx⟩ := Outcome.bind_eq_ok.1 hx
  have hsame : SameNote h h' := by
    rcases h.convertHSTMTResult_cases with ⟨res, -, -, heq⟩ | ⟨diag, heq⟩ | ⟨-, -, heq⟩
    · rw [heq] at hconv
      cases hconv
      exact ⟨rfl, rfl⟩
    · rw [heq] at hconv
      cases hconv
      exact ⟨rfl, rfl⟩
    · rw [heq] at hconv
      cases hconv
  suffices hh : reply.h = h' by rwa [hh]
  split at hx
  · next h'' heq =>
    obtain ⟨-, rfl⟩ := Prod.mk.inj heq
    split at hx
    · cases hx
      rfl
    · obtain ⟨count, -, hx⟩ := Outcome.bind_eq_ok.1 hx
      split at hx
      · cases hx
      · split at hx
        · cases hx
        · cases hx
          rfl
  · next heq =>
    obtain ⟨-, rfl⟩ := Prod.mk.inj heq
    cases hx
    rfl

/-- `SQLGetData` notes a cell of its own column at most. -/
theorem freshOffset_getData {num : ℕ} {t : CType} {target : Addr} {len : ℤ} {ind : Addr}
    (hx : h.sqlGetData E num t target len ind = .ok reply) {col : ℕ} (hne : col ≠ num - 1)
    (hf : h.FreshOffset col) : reply.h.FreshOffset col := by
  obtain ⟨⟨ret, h'⟩, hconv, hx⟩ := Outcome.bind_eq_ok.1 hx
  have hsame : SameNote h h' := by
    rcases h.convertHSTMTResult_cases with ⟨res, -, -, heq⟩ | ⟨diag, heq⟩ | ⟨-, -, heq⟩
    · rw [heq] at hconv
      cases hconv
      exact ⟨rfl, rfl⟩
    · rw [heq] at hconv
      cases hconv
      exact ⟨rfl, rfl⟩
    · rw [heq] at hconv
      cases hconv
  have hf' := hsame.freshOffset hf
  split at hx
  · next h'' heq =>
    obtain ⟨-, rfl⟩ := Prod.mk.inj heq
    obtain ⟨got, hgot, hx⟩ := Outcome.bind_eq_ok.1 hx
    cases hx
    have hrow := (sameCursor_getDataStmtResult hgot).chunkRow
    rcases lastFetched_getDataStmtResult hgot with hlast | ⟨hcol, -⟩
    · exact SameNote.freshOffset ⟨hlast, hrow⟩ hf'
    · refine freshOffset_iff.2 (.inr (.inl fun heq => hne ?_))
      dsimp only at heq
      omega
  · next heq =>
    obtain ⟨-, rfl⟩ := Prod.mk.inj heq
    cases hx
    exact hf'

end Calls

/-! ## Runs of calls -/

/-- A call, with the columns that were read since the cursor was positioned. -/
def Performs (E : Engine ρ V) (s : OdbcHandleStmt ρ V × Option (List ℕ)) (call : Call ρ V)
    (s' : OdbcHandleStmt ρ V × Option (List ℕ)) : Prop :=
  ∃ n reply, s.1.perform E n call = some (.ok reply) ∧
    s' = (reply.h, s.1.readSince call reply.ret s.2)

/-- The first reads of a call start at the first byte : each cell that a fetch delivers once it
is positioned, and the cell of `SQLGetData` if its column was not read since the cursor was
positioned. -/
def FirstReadsFresh (E : Engine ρ V) (s : OdbcHandleStmt ρ V × Option (List ℕ)) (call : Call ρ V) :
    Prop :=
  (∀ h₁, s.1.landing call = some h₁ → h₁.boundCols ≠ [] → DeliversFresh E h₁) ∧
  ∀ num t target len ind read, call = .getData num t target len ind → s.2 = some read →
    num - 1 ∉ read → s.1.FreshOffset (num - 1)

/-- If the call positions the cursor, then not on a row with the noted number. -/
def Elsewhere (s : OdbcHandleStmt ρ V × Option (List ℕ)) (call : Call ρ V) : Prop :=
  ∀ h₁, s.1.landing call = some h₁ → h₁.NotedElsewhere

/-- Of the columns that were not read since the cursor was positioned, nothing was returned. -/
def UnreadFresh (s : OdbcHandleStmt ρ V × Option (List ℕ)) : Prop :=
  ∀ read, s.2 = some read → ∀ col, col ∉ read → s.1.FreshOffset col

/-- A column that was not read is read from its start. -/
theorem UnreadFresh.firstReadsFresh {E : Engine ρ V} {s : OdbcHandleStmt ρ V × Option (List ℕ)}
    {call : Call ρ V} (hs : UnreadFresh s) (he : Elsewhere s call) : FirstReadsFresh E s call :=
  ⟨fun h₁ hl hb => (he h₁ hl).deliversFresh hb,
    fun _ _ _ _ _ read _ hread hmem => hs read hread _ hmem⟩

/-- A call that meets its condition leaves them fresh. -/
theorem UnreadFresh.performs {E : Engine ρ V} {s s' : OdbcHandleStmt ρ V × Option (List ℕ)}
    {call : Call ρ V} (hs : UnreadFresh s) (he : Elsewhere s call) (hx : Performs E s call s') :
    UnreadFresh s' := by
  obtain ⟨h, read⟩ := s
  obtain ⟨n, reply, hx, rfl⟩ := hx
  have hnote : SameNote h reply.h → UnreadFresh (reply.h, read) := fun hsame read hread col hmem =>
    hsame.freshOffset (hs read hread col hmem)
  have hlanded : UnreadFresh
      (reply.h, if reply.ret.succeeded then (h.landing call).map deliveredCols else none) := by
    intro read hread col hmem
    dsimp only at hread
    split_ifs at hread
    obtain ⟨h₁, hl, rfl⟩ := Option.map_eq_some_iff.1 hread
    obtain ⟨d, hd, -, hh⟩ := reply_of_landing hl hx
    dsimp only
    rw [hh]
    exact (he h₁ hl).freshOffset hd hmem
  cases call with
  | fetch source result =>
    cases hoff : h.retrieveData with
    | true =>
      simp only [readSince, hoff, if_true]
      exact hlanded
    | false =>
      simp only [readSince, hoff, Bool.false_eq_true, if_false]
      exact hnote (sameNote_fetch hoff (Option.some.inj hx))
  | fetchScroll orientation fetchOffset => exact hlanded
  | getData num t target len ind =>
    intro read' hread col hmem
    obtain ⟨read₀, hread₀, rfl⟩ := Option.map_eq_some_iff.1 hread
    rw [List.mem_cons, not_or] at hmem
    exact freshOffset_getData (Option.some.inj hx) hmem.1 (hs read₀ hread₀ col hmem.2)
  | rowCount ptr => exact hnote (sameNote_rowCount (Option.some.inj hx))
  | bindParameter args =>
    cases hx
    refine hnote ?_
    unfold bindParameterStmt
    split_ifs <;> exact ⟨rfl, rfl⟩
  | setRowBindType size =>
    refine hnote ?_
    simp only [perform, attr] at hx
    split_ifs at hx <;> · cases hx; exact ⟨rfl, rfl⟩
  | prepare | execute | execDirect | moreResults | close => exact nofun
  | _ =>
    cases hx
    exact hnote ⟨rfl, rfl⟩

/-- A run of calls none of whose fetches comes to a row with the noted number : the first reads
start at the first byte, all along. -/
theorem firstReads_fresh (E : Engine ρ V) (h : OdbcHandleStmt ρ V) (calls : List (Call ρ V))
    (he : Run.Along (Performs E) Elsewhere (h, none) calls) :
    Run.Along (Performs E) (FirstReadsFresh E) (h, none) calls :=
  he.strengthen UnreadFresh (fun _ _ _ hs he hx => hs.performs he hx)
    (fun _ _ hs he => hs.firstReadsFresh he) nofun

/-- A call that does not come to `Fetch`. -/
theorem elsewhere_of_none {s : OdbcHandleStmt ρ V × Option (List ℕ)} {call : Call ρ V}
    (hc : s.1.comesToFetch call = none) : Elsewhere s call := by
  intro h₁ hl
  rw [landing, hc] at hl
  cases hl

/-- A call whose reply is known. -/
theorem along_performs {E : Engine ρ V} {P : OdbcHandleStmt ρ V × Option (List ℕ) → Call ρ V → Prop}
    {h : OdbcHandleStmt ρ V} {read : Option (List ℕ)} {call : Call ρ V} {calls : List (Call ρ V)}
    (h' : OdbcHandleStmt ρ V) (read' : Option (List ℕ)) (hP : P (h, read) call)
    (hx : ∀ n, ∃ reply, h.perform E n call = some (.ok reply) ∧ reply.h = h' ∧
      h.readSince call reply.ret read = read')
    (hrest : Run.Along (Performs E) P (h', read') calls) :
    Run.Along (Performs E) P (h, read) (call :: calls) := by
  refine ⟨hP, ?_⟩
  rintro _ ⟨n, reply, hreply, rfl⟩
  obtain ⟨reply', hreply', rfl, rfl⟩ := hx n
  obtain rfl := Except.ok.inj (Option.some.inj (hreply.symm.trans hreply'))
  exact hrest

/-- A handle on a chunk of two rows, without a bound column. -/
def twoRows (row prior count : ℤ) (noted : LastFetched) : OdbcHandleStmt ℕ ℕ :=
  let c : DataChunk ℕ := ⟨0, 1, ⟨[65, 66], by simp⟩⟩
  { (blank : OdbcHandleStmt ℕ ℕ) with
    stmt := some ⟨none, 0, 1, true, false⟩
    res := some (queryResult 1 [])
    opened := true
    odbcFetcher := ⟨.static, count, noted, [c], 0, some c, row, prior, true⟩ }

/-- Both rows, one after the other. -/
theorem firstReads_fresh_twoRows :
    Run.Along (Performs byteEngine) (FirstReadsFresh byteEngine)
      (twoRows (-1) (-1) 0 ⟨-1, -1, 0⟩, none)
      [.fetchScroll .next 0, .getData 1 .wchar 100 4 200, .fetchScroll .next 0,
        .getData 1 .wchar 100 4 200] := by
  refine firstReads_fresh _ _ _ ?_
  refine along_performs (twoRows 0 (-1) 1 ⟨-1, -1, 0⟩) (some []) ?_
    (fun n => ⟨_, rfl, rfl, rfl⟩) ?_
  · intro h₁ hl
    obtain rfl : twoRows (-1) (-1) 0 ⟨-1, -1, 0⟩ = h₁ := Option.some.inj hl
    exact .inl rfl
  refine along_performs (twoRows 0 (-1) 1 ⟨0, 0, 2⟩) (some [0])
    (elsewhere_of_none rfl) (fun n => ⟨_, rfl, rfl, rfl⟩) ?_
  refine along_performs (twoRows 1 0 2 ⟨0, 0, 2⟩) (some []) ?_
    (fun n => ⟨_, rfl, rfl, rfl⟩) ?_
  · intro h₁ hl
    obtain rfl : twoRows 0 0 1 ⟨0, 0, 2⟩ = h₁ := Option.some.inj hl
    refine .inr ?_
    rintro c - heq
    exact absurd (show (0 : ℤ) = 1 from heq) (by decide)
  exact ⟨elsewhere_of_none rfl, fun _ _ => trivial⟩

/-- The only row of a result, read to its end, and read again after a fetch of the first row :
the second read does not start at the first byte. -/
theorem first_read_not_fresh :
    ¬Run.Along (Performs byteEngine) (FirstReadsFresh byteEngine)
      (alloc (blank : OdbcHandleStmt ℕ ℕ), none)
      [.setCursorType .static, .execDirect (.ok [select 1 [⟨[65], by simp⟩]]), .fetchScroll .next 0,
        .getData 1 .wchar 100 4 200, .fetchScroll .first 0, .getData 1 .wchar 100 4 200] := by
  intro hall
  have hexec := hall.2 _ ⟨5, _, rfl, rfl⟩
  have hfetch := hexec.2 _ ⟨5, _, rfl, rfl⟩
  have hread := hfetch.2 _ ⟨5, _, rfl, rfl⟩
  have hfirst := hread.2 _ ⟨5, _, rfl, rfl⟩
  have hagain := hfirst.2 _ ⟨5, _, rfl, rfl⟩
  have hfresh := hagain.1.2 1 .wchar 100 4 200 [] rfl rfl (List.not_mem_nil)
  exact absurd (show (2 : ℕ) = 0 from hfresh) (by decide)

end OdbcHandleStmt

end HaybarnOdbc
