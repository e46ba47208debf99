import HaybarnOdbc.CellThrows

/-!
# What a fetch reports

A fetch reports the outcome of its cells twice : by its return code, and by the row status
array. `ColumnWise` and `RowWise` assign the code of every cell to the variable that they
return, and write `SQL_ROW_ERROR` over the status of a row when a cell of it fails. So the
code is that of the last cell, whatever the others were, no status says that a value was
truncated, and the elements behind the last row are not written (`reports_deliver`). Where the
conversion of a cell throws there is no code at all, and the status of the row is left at
`SQL_ROW_SUCCESS`.
-/

namespace HaybarnOdbc

variable {ρ V : Type}

/-- The status that stores leave in an element of the row status array. -/
def statusAt (ws : List Write) (i : ℕ) : Option RowStatus :=
  ws.foldl (fun st w => match w with | .status slot s => if slot = i then some s else st | _ => st)
    none

@[simp] theorem statusAt_nil (i : ℕ) : statusAt [] i = none := rfl

@[simp] theorem statusAt_append_status (ws : List Write) (slot i : ℕ) (st : RowStatus) :
    statusAt (ws ++ [.status slot st]) i = if slot = i then some st else statusAt ws i := by
  simp [statusAt]

theorem statusAt_append_of_cell {a : Addr} (ws : List Write) {ws' : List Write}
    (h : ∀ w ∈ ws', OdbcHandleStmt.IsCellWrite a w) (i : ℕ) :
    statusAt (ws ++ ws') i = statusAt ws i := by
  induction ws' generalizing ws with
  | nil => rw [List.append_nil]
  | cons w ws' ih =>
    have hone : statusAt (ws ++ [w]) i = statusAt ws i := by
      have hw := h w List.mem_cons_self
      cases w with
      | data addr bytes => simp [statusAt]
      | ind addr value => simp [statusAt]
      | status slot st => exact hw.elim
      | rowsFetched n => exact hw.elim
    rw [List.append_cons, ih _ fun w' hw' => h w' (List.mem_cons_of_mem w hw'), hone]

/-- The status of a row whose cells return the codes : an error if one of them fails. -/
def rowStatus (rets : List SqlReturn) : RowStatus :=
  if rets.all SqlReturn.succeeded then .success else .error

/-- What a variable holds that was assigned each of the codes in turn. -/
def lastReturn (rets : List SqlReturn) : SqlReturn := rets.getLastD .success

theorem rowStatus_eq_error_iff {rets : List SqlReturn} :
    rowStatus rets = .error ↔ ∃ r ∈ rets, r.succeeded = false := by
  unfold rowStatus
  split
  · next hall =>
    refine iff_of_false nofun ?_
    rintro ⟨r, hr, hfail⟩
    have := List.all_eq_true.1 hall r hr
    rw [hfail] at this
    cases this
  · next hall => simpa using hall

theorem rowStatus_cases (rets : List SqlReturn) :
    rowStatus rets = .success ∨ rowStatus rets = .error := by
  unfold rowStatus
  split
  · exact .inl rfl
  · exact .inr rfl

theorem lastReturn_mem {rets : List SqlReturn} (h : rets ≠ []) : lastReturn rets ∈ rets := by
  have hlast : lastReturn rets = rets.getLast h := by
    simp [lastReturn, List.getLast?_eq_some_getLast h]
  rw [hlast]
  exact List.getLast_mem h

/-- The last code does not depend on the order of the codes only if they are all the same. -/
theorem lastReturn_perm_iff (rets : List SqlReturn) :
    (∀ rets', rets'.Perm rets → lastReturn rets' = lastReturn rets) ↔
      ∀ r ∈ rets, ∀ r' ∈ rets, r = r' := by
  constructor
  · intro horder r hr r' hr'
    have hend : ∀ r ∈ rets, r = lastReturn rets := by
      intro r hr
      have hperm : (rets.erase r ++ [r]).Perm rets :=
        (List.perm_append_singleton r _).trans (List.perm_cons_erase hr).symm
      rw [← horder _ hperm]
      simp [lastReturn]
    rw [hend r hr, hend r' hr']
  · intro halike rets' hperm
    by_cases hempty : rets = []
    · subst hempty
      rw [hperm.eq_nil]
    · have hempty' : rets' ≠ [] := fun h => hempty (h ▸ hperm).symm.eq_nil
      exact halike _ (hperm.mem_iff.1 (lastReturn_mem hempty')) _ (lastReturn_mem hempty)

namespace OdbcHandleStmt

/-! ## The codes of the cells -/

/-- The codes of the cells of a row, column after column. -/
def rowReturns (E : Engine ρ V) (place : CellPlace) (rowIdx : ℕ) :
    Delivery ρ V → List ℕ → Except Fault (List SqlReturn)
  | _, [] => .ok []
  | d, colIdx :: cols => do
    let d' ← deliverCell E place rowIdx d colIdx
    let rets ← rowReturns E place rowIdx d' cols
    return if (d.h.boundCols[colIdx]?).any place.takes then d'.ret :: rets else rets

/-- The codes of the cells of the rows that a loop delivers, row after row. -/
def rowsReturns (E : Engine ρ V) (place : CellPlace) :
    Delivery ρ V → List ℕ → Except Fault (List (List SqlReturn))
  | _, [] => .ok []
  | d, rowIdx :: rows => do
    let c ← d.h.odbcFetcher.deref
    let columnCount ← (d.h.ahead 1).columnCount
    let rets ← rowReturns E place rowIdx (d.onRow c rowIdx) (List.range columnCount)
    let d' ← deliverRow E place d rowIdx
    let rest ← rowsReturns E place d' rows
    return rets :: rest

/-- The rows that a delivery hands out, each with the codes of its cells. The row that an
unbound fetch comes to has none. -/
def deliverReturns (E : Engine ρ V) (h : OdbcHandleStmt ρ V) :
    Except Fault (List (List SqlReturn)) := do
  let c ← h.odbcFetcher.deref
  if h.boundCols.isEmpty then
    return ((c.rows[(h.odbcFetcher.chunkRow + h.rowsetSize).toNat]?).toList).map fun _ => []
  else
    rowsReturns E h.place ⟨.success, h, [], []⟩ (List.range' h.firstRow (h.lastRow c - h.firstRow))

/-- The rows of a fetch with the codes of their cells : none if it does not come to a row. -/
def fetchReturns (E : Engine ρ V) (h : OdbcHandleStmt ρ V) (orientation : FetchOrientation)
    (fetchOffset : ℤ) : Except Fault (List (List SqlReturn)) :=
  if ¬h.opened then .ok []
  else do
    let (ret, h) ← h.fetchNextChunk orientation fetchOffset
    if ret = .success then h.deliverReturns E else .ok []

variable {E : Engine ρ V} {place : CellPlace}

theorem statusAt_setRowStatus (h : OdbcHandleStmt ρ V) (ws : List Write) (slot i : ℕ)
    (st : RowStatus) :
    statusAt (ws ++ h.setRowStatus slot st) i =
      if h.rowDesc.ird.arrayStatusPtr ≠ 0 ∧ slot = i then some st else statusAt ws i := by
  unfold setRowStatus
  by_cases hptr : h.rowDesc.ird.arrayStatusPtr = 0
  · simp [hptr]
  · simp [hptr]

/-! ## What the loops report -/

/-- The row status array is there. -/
def HasStatus (h : OdbcHandleStmt ρ V) : Prop := h.rowDesc.ird.arrayStatusPtr ≠ 0

instance (h : OdbcHandleStmt ρ V) : Decidable h.HasStatus := inferInstanceAs (Decidable (_ ≠ _))

/-- A cell that is taken replaces the code, and the status of its row if it fails. -/
theorem deliverCell_reports {slot colIdx : ℕ} {d d' : Delivery ρ V}
    (hx : deliverCell E place slot d colIdx = .ok d') :
    ((d.h.boundCols[colIdx]?).any place.takes = false ∧ d' = d) ∨
      (d.h.boundCols[colIdx]?).any place.takes = true ∧ ∀ i, statusAt d'.writes i =
        if d.h.HasStatus ∧ slot = i ∧ d'.ret.succeeded = false then some .error
        else statusAt d.writes i := by
  unfold deliverCell at hx
  split at hx
  · cases hx
  · next b hb =>
    rw [hb, Option.any_some]
    split at hx
    · next htakes =>
      obtain ⟨got, hgot, hx⟩ := Outcome.bind_eq_ok.1 hx
      cases hx
      refine .inr ⟨htakes, fun i => ?_⟩
      have hcell := statusAt_append_of_cell d.writes (isCellWrite_getDataStmtResult hgot) i
      obtain ⟨last, diag, hh⟩ := sameCursor_getDataStmtResult hgot
      dsimp only
      cases hret : got.ret.succeeded with
      | true => simpa using hcell
      | false =>
        rw [if_neg Bool.false_ne_true, statusAt_setRowStatus, hcell, hh]
        simp [HasStatus]
    · next htakes =>
      cases hx
      exact .inl ⟨by simpa using htakes, rfl⟩

/-- The loop over the columns returns the code of the last cell, and leaves an error as the
status of the row if a cell failed. -/
theorem rowReturns_reports {slot : ℕ} (cols : List ℕ) :
    ∀ {d d' : Delivery ρ V}, cols.foldlM (deliverCell E place slot) d = .ok d' →
      ∃ rets, rowReturns E place slot d cols = .ok rets ∧ d'.ret = rets.getLastD d.ret ∧
        ∀ i, statusAt d'.writes i =
          if d.h.HasStatus ∧ slot = i ∧ rets.all SqlReturn.succeeded = false then some .error
          else statusAt d.writes i := by
  induction cols with
  | nil =>
    intro d d' hx
    cases hx
    exact ⟨[], rfl, rfl, fun i => by simp⟩
  | cons colIdx cols ih =>
    intro d d' hx
    rw [List.foldlM_cons] at hx
    obtain ⟨d₁, hcell, hx⟩ := Outcome.bind_eq_ok.1 hx
    obtain ⟨rets, hrets, hret, hstatus⟩ := ih hx
    have hptr : d₁.h.HasStatus ↔ d.h.HasStatus := by
      obtain ⟨⟨last, diag, hh⟩, -⟩ := deliverCell_cases hcell
      rw [hh]
      rfl
    rw [rowReturns, hcell]
    simp only [bind, Except.bind, hrets]
    obtain ⟨htakes, rfl⟩ | ⟨htakes, hcellStatus⟩ := deliverCell_reports hcell
    · rw [htakes]
      exact ⟨rets, rfl, hret, hstatus⟩
    · rw [htakes]
      refine ⟨d₁.ret :: rets, rfl, by rw [hret, List.getLastD_cons], fun i => ?_⟩
      simp only [hstatus i, hcellStatus i, List.all_cons, hptr]
      by_cases hslot : d.h.HasStatus ∧ slot = i
      · rcases Bool.eq_false_or_eq_true d₁.ret.succeeded with hs | hs
        · simp [hslot.1, hslot.2, hs]
        · simp [hslot.1, hslot.2, hs]
      · have hother : ∀ p : Prop, ¬(d.h.HasStatus ∧ slot = i ∧ p) := fun p hp =>
          hslot ⟨hp.1, hp.2.1⟩
        simp only [hother, if_false]

/-- A row has the status that its cells give it. -/
theorem deliverRow_reports {slot : ℕ} {d d' : Delivery ρ V}
    (hx : deliverRow E place d slot = .ok d') :
    ∃ c n rets, d.h.odbcFetcher.deref = .ok c ∧ (d.h.ahead 1).columnCount = .ok n ∧
      rowReturns E place slot (d.onRow c slot) (List.range n) = .ok rets ∧
      d'.ret = rets.getLastD d.ret ∧ ∀ i, statusAt d'.writes i =
        if d.h.HasStatus ∧ slot = i then some (rowStatus rets) else statusAt d.writes i := by
  rw [deliverRow_eq] at hx
  obtain ⟨c, hc, hx⟩ := Outcome.bind_eq_ok.1 hx
  obtain ⟨n, hn, hx⟩ := Outcome.bind_eq_ok.1 hx
  obtain ⟨rets, hrets, hret, hstatus⟩ := rowReturns_reports _ hx
  refine ⟨c, n, rets, hc, hn, hrets, hret, fun i => ?_⟩
  have hfront : statusAt (d.onRow c slot).writes i =
      if d.h.HasStatus ∧ slot = i then some .success else statusAt d.writes i :=
    statusAt_setRowStatus _ _ _ _ _
  have hptr : (d.onRow c slot).h.HasStatus ↔ d.h.HasStatus := Iff.rfl
  simp only [hstatus i, hfront, hptr]
  by_cases hslot : d.h.HasStatus ∧ slot = i
  · rcases Bool.eq_false_or_eq_true (rets.all SqlReturn.succeeded) with hs | hs
    · simp [hslot.1, hslot.2, hs, rowStatus]
    · simp [hslot.1, hslot.2, hs, rowStatus]
  · have hother : ∀ p : Prop, ¬(d.h.HasStatus ∧ slot = i ∧ p) := fun p hp => hslot ⟨hp.1, hp.2.1⟩
    simp only [hother, hslot, if_false]

/-- The loop over the rows returns the code of the last cell of them all. -/
theorem rowsReturns_reports (m : ℕ) :
    ∀ (start : ℕ) {d d' : Delivery ρ V},
      (List.range' start m).foldlM (deliverRow E place) d = .ok d' →
      ∃ outs, rowsReturns E place d (List.range' start m) = .ok outs ∧ outs.length = m ∧
        d'.ret = outs.flatten.getLastD d.ret ∧ ∀ i, statusAt d'.writes i =
          if d.h.HasStatus ∧ start ≤ i ∧ i < start + m then (outs[i - start]?).map rowStatus
          else statusAt d.writes i := by
  induction m with
  | zero =>
    intro start d d' hx
    cases hx
    refine ⟨[], rfl, rfl, rfl, fun i => ?_⟩
    rw [if_neg (by omega)]
  | succ m ih =>
    intro start d d' hx
    rw [List.range'_succ, List.foldlM_cons] at hx
    obtain ⟨d₁, hrow, hx⟩ := Outcome.bind_eq_ok.1 hx
    obtain ⟨c, n, rets, hc, hn, hrets, hret₁, hstatus₁⟩ := deliverRow_reports hrow
    obtain ⟨outs, houts, hlen, hret, hstatus⟩ := ih (start + 1) hx
    have hptr : d₁.h.HasStatus ↔ d.h.HasStatus := by
      obtain ⟨⟨last, diag, hh⟩, -⟩ := deliverRow_cases hc hrow
      rw [hh]
      rfl
    refine ⟨rets :: outs, ?_, by rw [List.length_cons, hlen], ?_, fun i => ?_⟩
    · rw [List.range'_succ, rowsReturns, hc]
      simp only [bind, Except.bind, hn, hrets, hrow, houts]
      rfl
    · rw [hret, hret₁]
      simp
    · rw [hstatus i, hstatus₁ i]
      simp only [hptr]
      rcases Nat.lt_trichotomy i start with hlt | rfl | hgt
      · have hbefore : ∀ n, ¬(d.h.HasStatus ∧ start ≤ i ∧ i < n) := fun n hx => by omega
        have hbefore' : ∀ n, ¬(d.h.HasStatus ∧ start + 1 ≤ i ∧ i < n) := fun n hx => by omega
        have hother : ¬(d.h.HasStatus ∧ start = i) := fun hx => by omega
        simp only [hbefore, hbefore', hother, if_false]
      · by_cases hptr : d.h.HasStatus
        · simp [hptr]
        · simp [hptr]
      · have hother : ¬(d.h.HasStatus ∧ start = i) := fun hx => by omega
        have hwithin : (d.h.HasStatus ∧ start + 1 ≤ i ∧ i < start + 1 + m) ↔
            d.h.HasStatus ∧ start ≤ i ∧ i < start + (m + 1) := by
          refine and_congr_right fun _ => ?_
          omega
        have hindex : i - start = i - (start + 1) + 1 := by omega
        simp only [hother, if_false, hwithin]
        rw [hindex, List.getElem?_cons_succ]

/-! ## Whether the report covers the cells -/

/-- The report of a fetch that hands out rows with the codes `outs` covers every cell. A cell
that is truncated returns `SQL_SUCCESS_WITH_INFO`. -/
structure Covers (h : OdbcHandleStmt ρ V) (outs : List (List SqlReturn)) (d : Delivery ρ V) :
    Prop where
  failed : h.HasStatus → ∀ i rets, outs[i]? = some rets → (∃ r ∈ rets, r.succeeded = false) →
    statusAt d.writes i = some .error
  truncated : h.HasStatus → ∀ i rets, outs[i]? = some rets → (∀ r ∈ rets, r.succeeded = true) →
    .successWithInfo ∈ rets → statusAt d.writes i = some .successWithInfo
  info : .successWithInfo ∈ outs.flatten → d.ret ≠ .success
  anyOrder : ∀ rets, rets.Perm outs.flatten → lastReturn rets = lastReturn outs.flatten
  noRow : h.HasStatus → ∀ i, outs.length ≤ i → i < h.rowsetSize → statusAt d.writes i = some .noRow

/-- The cells all return the same code, and a row status array that is there has to say no
more than that : no cell is truncated, the rowset is full, and if the cells fail its first
row is that of the chunk. -/
structure OneOutcome (h : OdbcHandleStmt ρ V) (first : ℕ)
    (outs : List (List SqlReturn)) : Prop where
  alike : ∀ r ∈ outs.flatten, ∀ r' ∈ outs.flatten, r = r'
  full : h.HasStatus → h.rowsetSize ≤ outs.length
  whole : h.HasStatus → .successWithInfo ∉ outs.flatten
  front : h.HasStatus → first = 0 ∨ ∀ r ∈ outs.flatten, r.succeeded = true

/-- What a fetch reports of rows whose first one is the row `first` of its chunk. -/
structure Reports (h : OdbcHandleStmt ρ V) (first : ℕ) (outs : List (List SqlReturn))
    (d : Delivery ρ V) : Prop where
  ret : outs.flatten ≠ [] → d.ret = lastReturn outs.flatten
  only : ∀ i st, statusAt d.writes i = some st →
    first ≤ i ∧ ∃ rets, outs[i - first]? = some rets ∧ st = rowStatus rets
  each : h.HasStatus → ∀ i rets, outs[i]? = some rets → rets ≠ [] →
    statusAt d.writes (first + i) = some (rowStatus rets)

variable {h : OdbcHandleStmt ρ V} {first : ℕ} {outs : List (List SqlReturn)} {d : Delivery ρ V}

/-- With elements shifted by the first row, the error of a row is in its own element only if
a row before it failed as well. -/
theorem Reports.not_failed (hr : Reports h first outs d) (hcov : Covers h outs d)
    (hptr : h.HasStatus) (hfirst : first ≠ 0) (i : ℕ) :
    ∀ rets, outs[i]? = some rets → ¬∃ r ∈ rets, r.succeeded = false := by
  induction i using Nat.strong_induction_on with
  | _ i ih =>
    intro rets hrets hfail
    obtain ⟨hle, rets', hrets', herror⟩ := hr.only i _ (hcov.failed hptr i rets hrets hfail)
    exact ih (i - first) (by omega) rets' hrets' (rowStatus_eq_error_iff.1 herror.symm)

theorem Reports.covers_iff (hr : Reports h first outs d) :
    Covers h outs d ↔ OneOutcome h first outs := by
  constructor
  · intro hcov
    have halike := (lastReturn_perm_iff _).1 hcov.anyOrder
    refine ⟨halike, fun hptr => ?_, fun hptr hinfo => ?_, fun hptr => ?_⟩
    · by_contra hlt
      have hnone := hcov.noRow hptr outs.length (Nat.le_refl _) (by omega)
      obtain ⟨-, rets, -, hst⟩ := hr.only _ _ hnone
      rcases rowStatus_cases rets with h | h
      · rw [h] at hst; cases hst
      · rw [h] at hst; cases hst
    · obtain ⟨rets, hrets, hmem⟩ := List.mem_flatten.1 hinfo
      obtain ⟨i, hi⟩ := List.mem_iff_getElem?.1 hrets
      have hsucc : ∀ r ∈ rets, r.succeeded = true := by
        intro r hr
        rw [halike r (List.mem_flatten.2 ⟨rets, hrets, hr⟩) _ hinfo]
        rfl
      obtain ⟨-, rets', -, hst⟩ := hr.only i _ (hcov.truncated hptr i rets hi hsucc hmem)
      rcases rowStatus_cases rets' with h | h
      · rw [h] at hst; cases hst
      · rw [h] at hst; cases hst
    · by_cases hfirst : first = 0
      · exact .inl hfirst
      · refine .inr fun r hmem => ?_
        obtain ⟨rets, hrets, hmem⟩ := List.mem_flatten.1 hmem
        obtain ⟨i, hi⟩ := List.mem_iff_getElem?.1 hrets
        have hno := hr.not_failed hcov hptr hfirst i rets hi
        exact Bool.eq_true_of_not_eq_false fun hfail => hno ⟨r, hmem, hfail⟩
  · intro hone
    refine ⟨fun hptr i rets hi hfail => ?_, fun hptr i rets hi _ hinfo => ?_, fun hinfo => ?_,
      (lastReturn_perm_iff _).2 hone.alike, fun hptr i hle hlt => ?_⟩
    · obtain ⟨r, hmem, hfalse⟩ := hfail
      have hflat : r ∈ outs.flatten := List.mem_flatten.2 ⟨rets, List.mem_of_getElem? hi, hmem⟩
      rcases hone.front hptr with hfirst | hsucc
      · have heach := hr.each hptr i rets hi (List.ne_nil_of_mem hmem)
        rw [hfirst, Nat.zero_add] at heach
        rw [heach, rowStatus_eq_error_iff.2 ⟨r, hmem, hfalse⟩]
      · rw [hsucc r hflat] at hfalse
        cases hfalse
    · exact absurd (List.mem_flatten.2 ⟨rets, List.mem_of_getElem? hi, hinfo⟩) (hone.whole hptr)
    · have hne := List.ne_nil_of_mem hinfo
      rw [hr.ret hne, hone.alike _ (lastReturn_mem hne) _ hinfo]
      nofun
    · have := hone.full hptr
      omega

/-! ## The report of a fetch -/

theorem statusAt_setRowsFetched (d : Delivery ρ V) (n i : ℕ) :
    statusAt (setRowsFetched d n).writes i = statusAt d.writes i := by
  unfold setRowsFetched
  split
  · simp [statusAt]
  · rfl

theorem reports_deliver (hx : h.deliver E = .ok d) :
    ∃ outs, h.deliverReturns E = .ok outs ∧ Reports h h.firstRow outs d := by
  obtain ⟨c, hc⟩ := deref_of_deliver hx
  unfold deliverReturns
  rw [hc]
  simp only [bind, Except.bind]
  by_cases hb : h.boundCols = []
  · obtain ⟨d', hd', -, -, hwrites, -⟩ := deliver_unbound (E := E) hb hc
    obtain rfl : d = d' := Except.ok.inj (hx.symm.trans hd')
    rw [if_pos (by simp [hb])]
    have hnone : ∀ i, statusAt d.writes i = none := by
      intro i
      rw [hwrites]
      split <;> rfl
    refine ⟨_, rfl, fun hne => absurd ?_ hne, fun i st hst => ?_, fun _ i rets hrets hne => ?_⟩
    · simp
    · rw [hnone] at hst
      cases hst
    · obtain ⟨-, -, rfl⟩ := List.mem_map.1 (List.mem_of_getElem? hrets)
      exact absurd rfl hne
  · rw [deliver_of_bound hb] at hx
    obtain ⟨d₁, hd₁, hx⟩ := Outcome.bind_eq_ok.1 hx
    obtain ⟨d₀, n, hd₀, rfl⟩ := bound_cases hd₁
    have hsame : d.ret = d₀.ret ∧ d.writes = (setRowsFetched d₀ n).writes := by
      split at hx
      · cases hx
        exact ⟨setRowsFetched_ret d₀ n, rfl⟩
      · obtain ⟨h₂, -, hx⟩ := Outcome.bind_eq_ok.1 hx
        cases hx
        exact ⟨setRowsFetched_ret d₀ n, rfl⟩
    obtain ⟨c', hc', hrows⟩ := Outcome.bind_eq_ok.1 hd₀
    obtain rfl : c = c' := Except.ok.inj (hc.symm.trans hc')
    obtain ⟨outs, houts, hlen, hret, hstatus⟩ := rowsReturns_reports _ _ hrows
    have hat : ∀ i, statusAt d.writes i =
        if h.HasStatus ∧ h.firstRow ≤ i ∧ i < h.firstRow + (h.lastRow c - h.firstRow) then
          (outs[i - h.firstRow]?).map rowStatus
        else none := by
      intro i
      rw [hsame.2, statusAt_setRowsFetched]
      exact hstatus i
    rw [if_neg (by simpa using hb)]
    refine ⟨outs, houts, fun _ => hsame.1.trans hret, fun i st hst => ?_,
      fun hptr i rets hi _ => ?_⟩
    · rw [hat i] at hst
      split at hst
      · next hwithin =>
        obtain ⟨rets, hrets, rfl⟩ := Option.map_eq_some_iff.1 hst
        exact ⟨hwithin.2.1, rets, hrets, rfl⟩
      · cases hst
    · have hlt := (List.getElem?_eq_some_iff.1 hi).1
      rw [hat, if_pos ⟨hptr, by omega, by omega⟩, Nat.add_sub_cancel_left, hi]
      rfl

/-- The row of its chunk that a fetch hands out first. -/
def fetchFirstRow (h : OdbcHandleStmt ρ V) (orientation : FetchOrientation) (fetchOffset : ℤ) : ℕ :=
  match h.fetchNextChunk orientation fetchOffset with
  | .ok (_, h) => h.firstRow
  | .error _ => 0

theorem SameBindings.hasStatus {h h' : OdbcHandleStmt ρ V} (hs : SameBindings h h') :
    h'.HasStatus ↔ h.HasStatus := by
  unfold HasStatus
  rw [hs.2.2.1]

theorem SameBindings.reports {h h' : OdbcHandleStmt ρ V} (hs : SameBindings h h')
    (hr : Reports h' first outs d) : Reports h first outs d :=
  ⟨hr.ret, hr.only, fun hptr => hr.each (hs.hasStatus.2 hptr)⟩

/-- Every fetch reports so : the code of the last cell of its last row, and of each row
whether a cell failed, in the element with the number of the row in its chunk. -/
theorem reports_fetchStmtResult {o : FetchOrientation} {off : ℤ}
    (hx : h.fetchStmtResult E o off = .ok d) :
    ∃ outs, h.fetchReturns E o off = .ok outs ∧ Reports h (h.fetchFirstRow o off) outs d := by
  -- a fetch that does not come to a row stores nothing
  have hnone : ∀ (h' : OdbcHandleStmt ρ V) ret first, Reports h first [] ⟨ret, h', [], []⟩ :=
    fun h' ret first => ⟨fun hne => absurd rfl hne, nofun, nofun⟩
  unfold fetchReturns
  by_cases hopen : h.opened = true
  · cases hmove : h.fetchNextChunk o off with
    | error e => simp [fetchStmtResult, fetch, hopen, hmove, bind, Except.bind] at hx
    | ok p =>
      obtain ⟨ret, h₁⟩ := p
      rw [fetchStmtResult_of_open hopen hmove] at hx
      rw [if_neg (by simp [hopen])]
      simp only [bind, Except.bind, fetchFirstRow, hmove]
      by_cases hret : ret = .success
      · subst hret
        obtain ⟨outs, houts, hr⟩ := reports_deliver hx
        rw [if_pos rfl]
        exact ⟨outs, houts, (moved_fetchNextChunk hmove).sameBindings.reports hr⟩
      · rw [if_neg hret]
        refine ⟨[], rfl, ?_⟩
        cases ret with
        | success => exact absurd rfl hret
        | _ =>
          cases hx
          exact hnone _ _ _
  · rw [fetchStmtResult, if_pos hopen] at hx
    cases hx
    rw [if_pos hopen]
    exact ⟨[], rfl, hnone _ _ _⟩

theorem seven_ne_nil : ([7] : List ℕ) ≠ [] := by simp

/-- A row of two columns, the first bound as text to a buffer without room for it. -/
def twoColumnBytes : OdbcHandleStmt ℕ ℕ :=
  { preparedBytes with
    stmt := some ⟨none, 0, 2, true, false⟩
    boundCols := [⟨.char, 100, 1, 200⟩, ⟨.utinyint, 300, 1, 400⟩]
    rowDesc := { ird := { arrayStatusPtr := 500 } }
    opened := true
    res := some { queryResult 2 [] with fetched := 1 }
    odbcFetcher :=
      ⟨.forwardOnly, 0, ⟨-1, -1, 0⟩, [⟨0, 2, ⟨[7], seven_ne_nil⟩⟩], 0,
        some ⟨0, 2, ⟨[7], seven_ne_nil⟩⟩, -1, -1, false⟩ }

/-- What `Blob::TryGetBlobSize` has to say of a text that ends in a backslash and one more
letter. -/
def unterminatedEscape : String :=
  "Invalid hex escape code encountered in string -> blob conversion of string \"a\\b\": " ++
    "unterminated escape code at end of blob"

/-- The engine of `byteEngine`, but for the BLOBs : every value is the text `a\b`, which is none. -/
def backslashEngine : Engine ℕ ℕ :=
  { byteEngine with binaryBytes := fun _ => .error unterminatedEscape }

/-- Bound as `SQL_C_BINARY`, the cell leaves the fetch without a code. -/
example :
    { twoColumnBytes with
      boundCols := [⟨.binary, 100, 1, 200⟩, ⟨.utinyint, 300, 1, 400⟩] }.fetchStmtResult
        backslashEngine .next 0 = .error (.thrown unterminatedEscape) :=
  rfl

end OdbcHandleStmt

end HaybarnOdbc
