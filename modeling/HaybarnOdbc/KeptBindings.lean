import HaybarnOdbc.Batch
import HaybarnOdbc.Binding
import HaybarnOdbc.DataAtExec
import HaybarnOdbc.Lib.Run

/-!
# Bindings that stay

A column stays bound as it was, and so does a parameter, until it is bound anew or all of them
are released : except that preparing a statement cuts the vectors of bindings to its columns and
parameters, that an execution cuts the columns to those of its result where they were not known
before, and that data at execution moves the data pointer of its parameter. As long as the
statements in between are wide enough and no data comes at execution (`FitsCol`, `FitsParam`),
the bindings stay (`bindings_stay`).
-/

namespace HaybarnOdbc

variable {ρ V : Type}

/-- What is within the new size stays. -/
theorem getElem?_resize {α : Type} {l : List α} {n i : ℕ} {fill a : α} (hi : i < n)
    (h : l[i]? = some a) : (resize l n fill)[i]? = some a := by
  have hlen := (List.getElem?_eq_some_iff.1 h).1
  rw [resize, List.getElem?_append_left (by simp; omega), List.getElem?_take_of_lt hi]
  exact h

namespace OdbcHandleStmt

/-- The same columns and parameters are bound. -/
structure SameBound (h h' : OdbcHandleStmt ρ V) : Prop where
  boundCols : h'.boundCols = h.boundCols
  apd : h'.paramDesc.apd.records = h.paramDesc.apd.records
  ipd : h'.paramDesc.ipd.records = h.paramDesc.ipd.records

namespace SameBound

variable {h h' h'' : OdbcHandleStmt ρ V}

theorem refl (h : OdbcHandleStmt ρ V) : SameBound h h := ⟨rfl, rfl, rfl⟩

theorem trans (h₁ : SameBound h h') (h₂ : SameBound h' h'') : SameBound h h'' :=
  ⟨h₂.boundCols.trans h₁.boundCols, h₂.apd.trans h₁.apd, h₂.ipd.trans h₁.ipd⟩

/-- A moved cursor keeps them. -/
theorem of_moved (hm : Moved h h') : SameBound h h' :=
  ⟨hm.boundCols, by rw [hm.paramDesc], by rw [hm.paramDesc]⟩

theorem of_sameChunk (hs : SameChunk h h') : SameBound h h' := by
  obtain ⟨row, count, last, diag, rfl⟩ := hs
  exact ⟨rfl, rfl, rfl⟩

theorem of_sameCursor (hs : SameCursor h h') : SameBound h h' := by
  obtain ⟨last, diag, rfl⟩ := hs
  exact ⟨rfl, rfl, rfl⟩

end SameBound

/-! ## What keeps the bindings -/

/-- The check of a prepared statement keeps the bindings. -/
theorem convertHSTMTPrepared_sameBound (h : OdbcHandleStmt ρ V) :
    SameBound h h.convertHSTMTPrepared.2 := by
  rcases h.convertHSTMTPrepared_cases with ⟨stmt, -, -, hconv⟩ | ⟨diag, hconv⟩
  · rw [hconv]
    exact ⟨rfl, rfl, rfl⟩
  · rw [hconv]
    exact ⟨rfl, rfl, rfl⟩

/-- So does the check of a result. -/
theorem convertHSTMTResult_sameBound {h h' : OdbcHandleStmt ρ V} {ret : SqlReturn}
    (hx : h.convertHSTMTResult = .ok (ret, h')) : SameBound h h' := by
  rcases h.convertHSTMTResult_cases with ⟨res, -, -, hconv⟩ | ⟨diag, hconv⟩ | ⟨-, -, hconv⟩
  · rw [hconv] at hx
    cases hx
    exact ⟨rfl, rfl, rfl⟩
  · rw [hconv] at hx
    cases hx
    exact ⟨rfl, rfl, rfl⟩
  · rw [hconv] at hx
    cases hx

/-- Reading the parameters reads the bindings. -/
theorem getParamValues_sameBound {h : OdbcHandleStmt ρ V} {source : ParamSource V} {vs : List V}
    {x : Executed ρ V} (hx : h.getParamValues source = .ok (vs, x)) :
    SameBound h x.h ∧ x.h.stmt = h.stmt := by
  cases getParamValues_cases hx <;> exact ⟨⟨rfl, rfl, rfl⟩, rfl⟩

/-- So does a turn of a batch. -/
theorem singleExecuteStmt_sameBound {h : OdbcHandleStmt ρ V} {source : ParamSource V}
    {result : QueryResult ρ} {x : Executed ρ V} (hx : h.singleExecuteStmt source result = .ok x) :
    SameBound h x.h ∧ x.h.stmt = h.stmt := by
  unfold singleExecuteStmt at hx
  obtain ⟨⟨values, y⟩, hy, hx⟩ := Outcome.bind_eq_ok.1 hx
  obtain ⟨hbound, hstmt⟩ := getParamValues_sameBound hy
  have hstart : SameBound h y.h ∧ y.h.stmt = h.stmt :=
    ⟨⟨hbound.boundCols, hbound.apd, hbound.ipd⟩, hstmt⟩
  simp only at hx
  obtain ⟨log, heq, -, -⟩ := resetLogged (h.rowsFetchedPtr ≠ 0) y
  rw [heq] at hx
  split at hx
  · cases hx
    exact hstart
  · split at hx
    · cases hx
    · split at hx
      · cases hx
        exact ⟨hstart.1.trans ⟨rfl, rfl, rfl⟩, hstart.2⟩
      · split at hx <;> cases hx <;> exact ⟨hstart.1.trans ⟨rfl, rfl, rfl⟩, hstart.2⟩

/-- The result of an execution that succeeded is the engine's answer. -/
theorem singleExecuteStmt_res {h : OdbcHandleStmt ρ V} {source : ParamSource V}
    {result : QueryResult ρ} {x : Executed ρ V} (hx : h.singleExecuteStmt source result = .ok x) :
    x.h.res = none ∨ x.h.res = some result := by
  cases singleExecuteStmt_cases hx with
  | unread _ => exact .inl rfl
  | failed _ _ => exact .inr rfl
  | once _ _ _ _ _ => exact .inr rfl
  | set _ _ _ _ _ => exact .inr rfl

/-! ## The columns of a result -/

theorem res_setCurrentChunk (h : OdbcHandleStmt ρ V) : h.setCurrentChunk.2.res = h.res := by
  by_cases he : h.odbcFetcher.chunks = []
  · rw [setCurrentChunk_of_empty he]
  · obtain ⟨idx, c, -, hseat⟩ := setCurrentChunk_of_ne he
    rw [hseat]
    rfl

/-- Fetching a chunk keeps the number of columns of the result. -/
theorem columnCount_fetchNext {h h' : OdbcHandleStmt ρ V} {ret : SqlReturn}
    (hx : h.fetchNext = .ok (ret, h')) :
    h'.res.map QueryResult.columnCount = h.res.map QueryResult.columnCount := by
  cases hend : h.odbcFetcher.resultsetEnd with
  | true =>
    rw [fetchNext_of_end hend] at hx
    rw [← h.res_setCurrentChunk, Except.ok.inj hx]
  | false =>
    cases hres : h.res with
    | none => simp [fetchNext, hend, hres] at hx
    | some res =>
      cases hp : res.pending with
      | cons b bs =>
        rw [fetchNext_of_pending hend hres hp] at hx
        obtain rfl : _ = h' := congrArg Prod.snd (Except.ok.inj hx)
        rw [res_setCurrentChunk]
        rfl
      | nil =>
        cases hf : res.failure with
        | none =>
          rw [fetchNext_of_done hend hres hp hf] at hx
          cases hx
          simp [hres]
        | some msg =>
          rw [fetchNext_of_failure hend hres hp hf] at hx
          cases hx
          rfl

/-- The first fetch keeps the number of columns. -/
theorem columnCount_fetchFirst {h h' : OdbcHandleStmt ρ V} {ret : SqlReturn}
    (hx : h.fetchFirst = .ok (ret, h')) :
    h'.res.map QueryResult.columnCount = h.res.map QueryResult.columnCount := by
  obtain ⟨⟨ret₁, h₁⟩, h₁x, hx⟩ := Outcome.bind_eq_ok.1 hx
  cases hx
  unfold fetchNextChunk at h₁x
  rw [if_neg (by simp)] at h₁x
  simp only [setFirstCurrentChunk] at h₁x
  split at h₁x
  · exact (columnCount_fetchNext h₁x).trans rfl
  · cases h₁x
    rfl

/-! ## What executing and preparing do to the bindings -/

/-- A batch that ends keeps them, or resizes them to the columns of the result. -/
theorem batchFinish_bound {ret : SqlReturn} {h : OdbcHandleStmt ρ V} {log : List (ExecEvent V)}
    {x : Executed ρ V} (hx : batchFinish ret h log = .ok x) :
    x.h.boundCols = h.boundCols ∨ ∃ stmt res, h.stmt = some stmt ∧
      stmt.boundAllParameters = false ∧ h.res = some res ∧
      x.h.boundCols = resize h.boundCols res.columnCount {} := by
  unfold batchFinish at hx
  split at hx
  · cases hx
    exact .inl rfl
  · obtain ⟨⟨fetchRet, h₁⟩, hfirst, hx⟩ := Outcome.bind_eq_ok.1 hx
    have hmoved := moved_fetchFirst hfirst
    have hcolumns := columnCount_fetchFirst hfirst
    dsimp only at hx
    split at hx
    · cases hx
      exact .inl hmoved.boundCols
    · split at hx
      · cases hx
      · next stmt hstmt =>
        split at hx
        · cases hx
          exact .inl hmoved.boundCols
        · next hall =>
          split at hx
          · cases hx
          · next res hres =>
            cases hx
            rw [hres, Option.map_some, eq_comm] at hcolumns
            obtain ⟨res₀, hres₀, heq⟩ := Option.map_eq_some_iff.1 hcolumns
            exact .inr ⟨stmt, res₀, hmoved.stmt ▸ hstmt, by simpa using hall, hres₀, by
              rw [heq, ← hmoved.boundCols]⟩

/-- What is left of the bindings after an execution : all of them, or the columns are cut to the
ones of a result. -/
theorem batchExecuteStmt_bound {n : ℕ} {a : ExecAnswers ρ V} {h : OdbcHandleStmt ρ V}
    {x : Executed ρ V} (hx : h.batchExecuteStmt n a = some (.ok x)) :
    x.h.paramDesc.apd.records = h.paramDesc.apd.records ∧
      x.h.paramDesc.ipd.records = h.paramDesc.ipd.records ∧
      (x.h.boundCols = h.boundCols ∨ ∃ stmt turn, h.stmt = some stmt ∧
        stmt.boundAllParameters = false ∧
        x.h.boundCols = resize h.boundCols (a.results turn).columnCount {}) := by
  obtain ⟨y, hrun, hy⟩ := Option.map_eq_some_iff.1 hx
  obtain ⟨⟨ret, b⟩, rfl, hfinish⟩ := Outcome.bind_eq_ok.1 hy
  have hb : SameBound h b.h ∧ b.h.stmt = h.stmt ∧
      (b.h.res = none ∨ ∃ turn, b.h.res = some (a.results turn)) := by
    refine DoWhile.run_invariant (batchBody a) (· = .stillExecuting)
      (fun b => SameBound h b.h ∧ b.h.stmt = h.stmt)
      (fun x => ∀ p, x = .ok p → SameBound h p.2.h ∧ p.2.h.stmt = h.stmt ∧
        (p.2.h.res = none ∨ ∃ turn, p.2.h.res = some (a.results turn)))
      (fun _ _ _ _ _ hp => nomatch hp) ?_ ?_ ⟨.refl h, rfl⟩ hrun _ rfl
    · rintro b r b' ⟨hbound, hstmt⟩ hbody -
      obtain ⟨x, hsingle, hret⟩ := Outcome.bind_eq_ok.1 hbody
      cases hret
      have hx := singleExecuteStmt_sameBound hsingle
      exact ⟨hbound.trans hx.1, hx.2.trans hstmt⟩
    · rintro b r b' ⟨hbound, hstmt⟩ hbody - p hp
      obtain rfl := Except.ok.inj hp
      obtain ⟨x, hsingle, hret⟩ := Outcome.bind_eq_ok.1 hbody
      cases hret
      have hx := singleExecuteStmt_sameBound hsingle
      exact ⟨hbound.trans hx.1, hx.2.trans hstmt,
        (singleExecuteStmt_res hsingle).imp_right fun hres => ⟨b.turn, hres⟩⟩
  obtain ⟨hbound, hstmt, hres⟩ := hb
  obtain ⟨-, hparam, -⟩ := batchFinish_cases hfinish
  refine ⟨by rw [hparam, hbound.apd], by rw [hparam, hbound.ipd], ?_⟩
  rcases batchFinish_bound hfinish with heq | ⟨stmt, res, hs, hall, hsome, heq⟩
  · exact .inl (heq.trans hbound.boundCols)
  · rcases hres with hnone | ⟨turn, hturn⟩
    · rw [hnone] at hsome
      cases hsome
    · obtain rfl : a.results turn = res := Option.some.inj (hturn.symm.trans hsome)
      exact .inr ⟨stmt, turn, hstmt ▸ hs, hall, by rw [heq, hbound.boundCols]⟩

/-- What is left of the bindings once a statement is prepared. -/
theorem finalizeStmt_bound (h : OdbcHandleStmt ρ V) (p : PreparedStatement) :
    (p.error.isSome ∧ SameBound h (h.finalizeStmt p).2) ∨
    (p.error = none ∧ (h.finalizeStmt p).2.stmt = some { p with columnCount := p.knownColumns } ∧
      (h.finalizeStmt p).2.boundCols = resize h.boundCols p.knownColumns {} ∧
      (h.finalizeStmt p).2.paramDesc = h.paramDesc.resetParams p.paramCount) := by
  obtain ⟨error, paramCount, columnCount, all, isDml⟩ := p
  cases error with
  | some msg => exact .inl ⟨rfl, rfl, rfl, rfl⟩
  | none => cases all <;> exact .inr ⟨rfl, rfl, rfl, rfl⟩

/-- So does a fetch. -/
theorem fetchStmtResult_sameBound {E : Engine ρ V} {h : OdbcHandleStmt ρ V} {o : FetchOrientation}
    {off : ℤ} {d : Delivery ρ V} (hx : h.fetchStmtResult E o off = .ok d) : SameBound h d.h := by
  unfold fetchStmtResult at hx
  split at hx
  · cases hx
    exact .refl h
  · obtain ⟨⟨ret, h₁⟩, hmove, hx⟩ := Outcome.bind_eq_ok.1 hx
    refine SameBound.trans (.of_moved (moved_fetchNextChunk hmove)) ?_
    dsimp only at hx
    split at hx
    · exact .of_sameChunk (sameChunk_deliver hx)
    · cases hx
      exact .refl _
    · cases hx
      exact .refl _

/-- So does the execution before a fetch. -/
theorem executeBeforeFetch_sameBound {h : OdbcHandleStmt ρ V} {source : ParamSource V}
    {result : QueryResult ρ} {x : Executed ρ V} (hx : h.executeBeforeFetch source result = .ok x) :
    SameBound h x.h := by
  have hconv := h.convertHSTMTPrepared_sameBound
  unfold executeBeforeFetch at hx
  split at hx
  · next h₁ heq =>
    rw [heq] at hconv
    split at hx
    · cases hx
      exact hconv
    · split at hx
      · obtain ⟨y, hy, hx⟩ := Outcome.bind_eq_ok.1 hx
        cases hx
        exact hconv.trans (singleExecuteStmt_sameBound hy).1
      · cases hx
        exact hconv
  · next ret h₁ _ heq =>
    rw [heq] at hconv
    cases hx
    exact hconv

/-- So does `SQLFetch`. -/
theorem sqlFetch_sameBound {E : Engine ρ V} {h : OdbcHandleStmt ρ V} {source : ParamSource V}
    {result : QueryResult ρ} {r : Reply ρ V} (hx : h.sqlFetch E source result = .ok r) :
    SameBound h r.h := by
  have hconv := h.convertHSTMTPrepared_sameBound
  unfold sqlFetch at hx
  split at hx
  · next h₁ heq =>
    rw [heq] at hconv
    split at hx
    · obtain ⟨x, hexec, hx⟩ := Outcome.bind_eq_ok.1 hx
      have hbound := hconv.trans (executeBeforeFetch_sameBound hexec)
      split at hx
      · cases hx
        exact hbound
      · obtain ⟨d, hfetch, hx⟩ := Outcome.bind_eq_ok.1 hx
        cases hx
        exact hbound.trans (fetchStmtResult_sameBound hfetch)
    · cases hx
      exact hconv
  · next ret h₁ _ heq =>
    rw [heq] at hconv
    cases hx
    exact hconv

/-- So does `SQLFetchScroll`. -/
theorem sqlFetchScroll_sameBound {E : Engine ρ V} {h : OdbcHandleStmt ρ V} {o : FetchOrientation}
    {off : ℤ} {r : Reply ρ V} (hx : h.sqlFetchScroll E o off = .ok r) : SameBound h r.h := by
  unfold sqlFetchScroll at hx
  split at hx
  · cases hx
    exact .refl h
  · obtain ⟨⟨ret, h₁⟩, hconv, hx⟩ := Outcome.bind_eq_ok.1 hx
    have hbound := convertHSTMTResult_sameBound hconv
    split at hx
    · next heq =>
      obtain ⟨rfl, rfl⟩ := Prod.mk.inj heq
      obtain ⟨d, hfetch, hx⟩ := Outcome.bind_eq_ok.1 hx
      cases hx
      exact hbound.trans (fetchStmtResult_sameBound hfetch)
    · next heq =>
      obtain ⟨rfl, rfl⟩ := Prod.mk.inj heq
      cases hx
      exact hbound

/-- So does `SQLGetData`. -/
theorem sqlGetData_sameBound {E : Engine ρ V} {h : OdbcHandleStmt ρ V} {num : ℕ} {t : CType}
    {target : Addr} {len : ℤ} {ind : Addr} {r : Reply ρ V}
    (hx : h.sqlGetData E num t target len ind = .ok r) : SameBound h r.h := by
  obtain ⟨⟨ret, h₁⟩, hconv, hx⟩ := Outcome.bind_eq_ok.1 hx
  have hbound := convertHSTMTResult_sameBound hconv
  split at hx
  · next heq =>
    obtain ⟨rfl, rfl⟩ := Prod.mk.inj heq
    obtain ⟨got, hgot, hx⟩ := Outcome.bind_eq_ok.1 hx
    cases hx
    exact hbound.trans (.of_sameCursor (sameCursor_getDataStmtResult hgot))
  · next heq =>
    obtain ⟨rfl, rfl⟩ := Prod.mk.inj heq
    cases hx
    exact hbound

/-- So does `SQLMoreResults`. -/
theorem sqlMoreResults_sameBound {h : OdbcHandleStmt ρ V} {source : ParamSource V}
    {result : QueryResult ρ} {r : Reply ρ V} (hx : h.sqlMoreResults source result = .ok r) :
    SameBound h r.h := by
  unfold sqlMoreResults at hx
  dsimp only at hx
  split at hx
  · cases hx
    exact ⟨rfl, rfl, rfl⟩
  · obtain ⟨x, hexec, hx⟩ := Outcome.bind_eq_ok.1 hx
    cases hx
    have hbound := (singleExecuteStmt_sameBound hexec).1
    exact ⟨hbound.boundCols, hbound.apd, hbound.ipd⟩

/-- So does `SQLRowCount`. -/
theorem sqlRowCount_sameBound {h : OdbcHandleStmt ρ V} {ptr : Addr} {r : Reply ρ V}
    (hx : h.sqlRowCount ptr = .ok r) : SameBound h r.h := by
  obtain ⟨⟨ret, h₁⟩, hconv, hx⟩ := Outcome.bind_eq_ok.1 hx
  have hbound := convertHSTMTResult_sameBound hconv
  split at hx
  · next heq =>
    obtain ⟨rfl, rfl⟩ := Prod.mk.inj heq
    split at hx
    · cases hx
      exact hbound
    · obtain ⟨count, -, hx⟩ := Outcome.bind_eq_ok.1 hx
      split at hx
      · cases hx
      · split at hx
        · cases hx
        · cases hx
          exact hbound
  · next heq =>
    obtain ⟨rfl, rfl⟩ := Prod.mk.inj heq
    cases hx
    exact hbound

/-- A property that preparing and executing keep holds after the statements of a text, by
induction on the ones that are left. -/
theorem execDirectLoop_invariant (I : OdbcHandleStmt ρ V → Prop) {n : ℕ} :
    ∀ {l : List (StatementAnswer ρ V)} {ret : SqlReturn} {info : Bool} {h : OdbcHandleStmt ρ V}
      {log : List (ExecEvent V)} {x : Executed ρ V},
      (∀ s ∈ l, ∀ h, I h → I (h.finalizeStmt s.prepared).2 ∧
        (s.prepared.error = none → ∀ x,
          (h.finalizeStmt s.prepared).2.batchExecuteStmt n s.exec = some (.ok x) → I x.h)) →
      I h → execDirectLoop n l ret info h log = some (.ok x) → I x.h
  | [], _, _, _, _, _, _, hh, hx => by
    cases hx
    exact hh
  | s :: rest, ret, info, h, log, x, hl, hh, hx => by
    obtain ⟨hfin, hexec⟩ := hl s (List.mem_cons_self ..) h hh
    rw [execDirectLoop] at hx
    generalize h.finalizeStmt s.prepared = f at hx hfin hexec
    obtain ⟨ret₁, h₁⟩ := f
    dsimp only at hx hfin hexec
    split at hx
    · cases hx
      exact hfin
    · next hgo =>
      have herr : s.prepared.error = none := by
        simpa using fun hsome => hgo (.inl hsome)
      split at hx
      · cases hx
      · cases hx
      · next y hy =>
        have hy' := hexec herr y hy
        split at hx
        · cases hx
          exact hy'
        · exact execDirectLoop_invariant I (fun t ht => hl t (List.mem_cons_of_mem s ht)) hy' hx

/-! ## One binding -/

/-- The column is bound like this. -/
def HoldsCol (c : ℕ) (b : OdbcBoundCol) (h : OdbcHandleStmt ρ V) : Prop :=
  h.boundCols[c - 1]? = some b

/-- The parameter is bound like this : `r` is its record in the application descriptor, `s` the one
in the implementation descriptor. -/
def HoldsParam (p : ℕ) (r s : DescRecord) (h : OdbcHandleStmt ρ V) : Prop :=
  h.paramDesc.apd.records[p - 1]? = some r ∧ h.paramDesc.ipd.records[p - 1]? = some s

namespace HoldsCol

variable {c : ℕ} {b : OdbcBoundCol} {h h' : OdbcHandleStmt ρ V}

/-- It goes by the bindings. -/
theorem of_sameBound (hh : HoldsCol c b h) (hs : SameBound h h') : HoldsCol c b h' := by
  rw [HoldsCol, hs.boundCols]
  exact hh

/-- A statement with as many columns keeps the binding. -/
theorem finalizeStmt (hh : HoldsCol c b h) (hc : 1 ≤ c) {p : PreparedStatement}
    (hp : p.error = none → c ≤ p.knownColumns) : HoldsCol c b (h.finalizeStmt p).2 := by
  rcases h.finalizeStmt_bound p with ⟨-, hsame⟩ | ⟨herr, -, hcols, -⟩
  · exact hh.of_sameBound hsame
  · have hle := hp herr
    rw [HoldsCol, hcols]
    exact getElem?_resize (by omega) hh

/-- So does an execution whose result has as many. -/
theorem batchExecuteStmt (hh : HoldsCol c b h) (hc : 1 ≤ c) {n : ℕ} {a : ExecAnswers ρ V}
    {x : Executed ρ V}
    (ha : ∀ stmt, h.stmt = some stmt → stmt.boundAllParameters = false →
      ∀ turn, c ≤ (a.results turn).columnCount)
    (hx : h.batchExecuteStmt n a = some (.ok x)) : HoldsCol c b x.h := by
  obtain ⟨-, -, hcols | ⟨stmt, turn, hstmt, hall, hcols⟩⟩ := batchExecuteStmt_bound hx
  · rw [HoldsCol, hcols]
    exact hh
  · have hle := ha stmt hstmt hall turn
    rw [HoldsCol, hcols]
    exact getElem?_resize (by omega) hh

/-- So does a text of such statements. -/
theorem execDirectLoop (hh : HoldsCol c b h) (hc : 1 ≤ c) {n : ℕ} {l : List (StatementAnswer ρ V)}
    {ret : SqlReturn} {info : Bool} {log : List (ExecEvent V)} {x : Executed ρ V}
    (hl : ∀ s ∈ l, s.prepared.error = none → c ≤ s.prepared.knownColumns)
    (hx : OdbcHandleStmt.execDirectLoop n l ret info h log = some (.ok x)) : HoldsCol c b x.h := by
  refine execDirectLoop_invariant (HoldsCol c b) (fun s hs h hh => ?_) hh hx
  have hfin := hh.finalizeStmt hc (hl s hs)
  refine ⟨hfin, fun herr y hy => hfin.batchExecuteStmt hc (fun stmt hstmt hall => ?_) hy⟩
  -- a statement whose columns are not known has none
  rcases h.finalizeStmt_bound s.prepared with ⟨hsome, -⟩ | ⟨-, hset, -, -⟩
  · simp [herr] at hsome
  · rw [hstmt] at hset
    obtain rfl := Option.some.inj hset
    have hle := hl s hs herr
    rw [PreparedStatement.knownColumns, if_neg (by simpa using hall)] at hle
    omega

end HoldsCol

/-- What is there stays. -/
theorem getElem?_growTo {d : ParamDesc} {idx i : ℕ} {r : DescRecord} (hr : d.records[i]? = some r) :
    (ParameterDescriptor.growTo d idx).records[i]? = some r := by
  unfold ParameterDescriptor.growTo
  split_ifs
  · have hlen := (List.getElem?_eq_some_iff.1 hr).1
    exact getElem?_resize (by omega) hr
  · exact hr

theorem lt_length_growTo (d : ParamDesc) (idx : ℕ) :
    idx < (ParameterDescriptor.growTo d idx).records.length := by
  unfold ParameterDescriptor.growTo
  split_ifs
  · simp
  · omega

namespace HoldsParam

variable {p : ℕ} {r s : DescRecord} {h h' : OdbcHandleStmt ρ V}

theorem of_sameBound (hh : HoldsParam p r s h) (hs : SameBound h h') : HoldsParam p r s h' := by
  rw [HoldsParam, hs.apd, hs.ipd]
  exact hh

/-- A statement with as many parameters keeps the binding. -/
theorem finalizeStmt (hh : HoldsParam p r s h) (hp : 1 ≤ p) {q : PreparedStatement}
    (hq : q.error = none → p ≤ q.paramCount) : HoldsParam p r s (h.finalizeStmt q).2 := by
  rcases h.finalizeStmt_bound q with ⟨-, hsame⟩ | ⟨herr, -, -, hparam⟩
  · exact hh.of_sameBound hsame
  · have hle := hq herr
    rw [HoldsParam, hparam]
    exact ⟨getElem?_resize (by omega) hh.1, getElem?_resize (by omega) hh.2⟩

/-- Another parameter is bound. -/
theorem bindParameterStmt (hh : HoldsParam p r s h) (hp : 1 ≤ p) {args : BindParameterArgs}
    (hne : args.parameterNumber ≠ p) : HoldsParam p r s (h.bindParameterStmt args).2 := by
  unfold OdbcHandleStmt.bindParameterStmt
  by_cases htype : args.inputOutputType ≠ 1
  · rw [if_pos htype]
    exact hh
  rw [if_neg htype]
  by_cases hnum : args.parameterNumber < 1
  · rw [if_pos hnum]
    exact hh
  rw [if_neg hnum]
  have hidx : args.parameterNumber - 1 ≠ p - 1 := by omega
  refine ⟨?_, ?_⟩
  · simpa [hidx] using getElem?_growTo hh.1
  · simpa [hidx] using getElem?_growTo hh.2

/-- So does an execution. -/
theorem batchExecuteStmt (hh : HoldsParam p r s h) {n : ℕ} {a : ExecAnswers ρ V}
    {x : Executed ρ V} (hx : h.batchExecuteStmt n a = some (.ok x)) : HoldsParam p r s x.h := by
  obtain ⟨hapd, hipd, -⟩ := batchExecuteStmt_bound hx
  rw [HoldsParam, hapd, hipd]
  exact hh

/-- So does a text of such statements. -/
theorem execDirectLoop (hh : HoldsParam p r s h) (hp : 1 ≤ p) {n : ℕ}
    {l : List (StatementAnswer ρ V)} {ret : SqlReturn} {info : Bool} {log : List (ExecEvent V)}
    {x : Executed ρ V} (hl : ∀ s ∈ l, s.prepared.error = none → p ≤ s.prepared.paramCount)
    (hx : OdbcHandleStmt.execDirectLoop n l ret info h log = some (.ok x)) :
    HoldsParam p r s x.h := by
  refine execDirectLoop_invariant (HoldsParam p r s) (fun t ht h hh => ?_) hh hx
  have hfin := hh.finalizeStmt hp (hl t ht)
  exact ⟨hfin, fun _ y hy => hfin.batchExecuteStmt hy⟩

end HoldsParam

end OdbcHandleStmt

/-! ## Data at execution -/

namespace Talk

open OdbcHandleStmt

variable {t t' : Talk ρ V} {p : Piece} {log : List Access}

/-- Putting the piece moves the data pointer of the parameter with the record `r` : it is the
first piece, or the parameter takes no pieces and the piece is not null. -/
def MovesPointer (p : Piece) (t : Talk ρ V) (r : DescRecord) : Prop :=
  if isPiecewise r.type then
    if t.desc.apd.header.arraySize = 1 then t.mem.indicators (r.indicatorAddr 0) = sqlDataAtExec
    else t.mem.indicators (r.indicatorAddr t.here.set) = sqlDataAtExec ∧ t.mem.pool = []
  else p.strLenOrInd ≠ sqlNullData

/-- Nothing but the data pointer of the current parameter is touched of the bindings. -/
structure Put (p : Piece) (t t' : Talk ρ V) : Prop where
  boundCols : t'.h.boundCols = t.h.boundCols
  ipd : t'.desc.ipd.records = t.desc.ipd.records
  apd : ∀ i r, t.desc.apd.records[i]? = some r →
    (i = t.desc.curParamIdx → ¬t.MovesPointer p r) → t'.desc.apd.records[i]? = some r

/-- Nothing was put. -/
theorem Put.of_eq (h : t'.h.boundCols = t.h.boundCols)
    (hipd : t'.desc.ipd.records = t.desc.ipd.records)
    (hapd : t'.desc.apd.records = t.desc.apd.records) : Put p t t' :=
  ⟨h, hipd, fun _ _ hr _ => by rw [hapd]; exact hr⟩

/-- The data pointer of the current parameter is moved. -/
theorem Put.of_modify {f : DescRecord → DescRecord} (h : t'.h.boundCols = t.h.boundCols)
    (hipd : t'.desc.ipd.records = t.desc.ipd.records)
    (hapd : t'.desc.apd.records = t.desc.apd.records.modify t.desc.curParamIdx f)
    (hmoves : ∀ r, t.desc.apd.records[t.desc.curParamIdx]? = some r → t.MovesPointer p r) :
    Put p t t' := by
  refine ⟨h, hipd, fun i r hr hi => ?_⟩
  have hne : t.desc.curParamIdx ≠ i := by
    rintro rfl
    exact hi rfl (hmoves r hr)
  simp [hapd, hne, hr]

theorem put_fillParamCharDataBuffer {r s : DescRecord}
    (hr : t.desc.apd.records[t.desc.curParamIdx]? = some r) (htype : isPiecewise r.type = true)
    (hsize : t.desc.apd.header.arraySize = 1)
    (hx : t.fillParamCharDataBuffer p r s = some (t', log)) : Put p t t' := by
  unfold fillParamCharDataBuffer at hx
  by_cases hind : r.indicatorPtr = 0
  · simp [hind] at hx
  rw [if_neg hind] at hx
  by_cases hfirst : t.mem.indicators (r.indicatorAddr 0) = sqlDataAtExec
  · have hmoves : ∀ r', t.desc.apd.records[t.desc.curParamIdx]? = some r' →
      t.MovesPointer p r' := by
      intro r' hr'
      obtain rfl : r = r' := Option.some.inj (hr.symm.trans hr')
      simp [MovesPointer, htype, hsize, hfirst]
    simp only [hfirst, decide_true, if_true] at hx
    split_ifs at hx <;> cases hx <;> exact .of_modify rfl rfl rfl hmoves
  · simp only [hfirst, decide_false, Bool.false_eq_true, if_false] at hx
    split_ifs at hx <;> cases hx <;> exact .of_eq rfl rfl rfl

theorem put_fillCurParamCharSet {r s : DescRecord}
    (hr : t.desc.apd.records[t.desc.curParamIdx]? = some r) (htype : isPiecewise r.type = true)
    (hsize : t.desc.apd.header.arraySize ≠ 1)
    (hx : t.fillCurParamCharSet p r s = some (t', log)) : Put p t t' := by
  unfold fillCurParamCharSet at hx
  by_cases hind : r.indicatorPtr = 0
  · simp [hind] at hx
  rw [if_neg hind] at hx
  by_cases hfirst : t.mem.indicators (r.indicatorAddr t.here.set) = sqlDataAtExec ∧ t.mem.pool = []
  · have hmoves : ∀ r', t.desc.apd.records[t.desc.curParamIdx]? = some r' →
      t.MovesPointer p r' := by
      intro r' hr'
      obtain rfl : r = r' := Option.some.inj (hr.symm.trans hr')
      simpa [MovesPointer, htype, hsize] using hfirst
    simp only [hfirst, and_self, decide_true, if_true] at hx
    cases hx
    exact .of_modify rfl rfl rfl hmoves
  · simp only [hfirst, decide_false, Bool.false_eq_true, if_false] at hx
    cases hx
    exact .of_eq rfl rfl rfl

theorem put_putPointer {r : DescRecord} (hr : t.desc.apd.records[t.desc.curParamIdx]? = some r)
    (htype : isPiecewise r.type = false) (hx : t.putPointer p r = some (t', log)) : Put p t t' := by
  unfold putPointer at hx
  by_cases hnull : p.strLenOrInd = sqlNullData
  · simp only [hnull, if_true] at hx
    split_ifs at hx
    cases hx
    exact .of_eq rfl rfl rfl
  · simp only [hnull, if_false] at hx
    cases hx
    refine .of_modify rfl rfl rfl fun r' hr' => ?_
    obtain rfl : r = r' := Option.some.inj (hr.symm.trans hr')
    simp [MovesPointer, htype, hnull]

/-- Data is put for the current parameter. -/
theorem put_putData {ret : SqlReturn} (hx : t.putData p = some (ret, t', log)) : Put p t t' := by
  unfold putData at hx
  split at hx
  · cases hx
    exact .of_eq rfl rfl rfl
  · split at hx
    · cases hx
    · next r hr =>
      split at hx
      · next htype =>
        split at hx
        · cases hx
        · next s hs =>
          obtain ⟨⟨t₁, log₁⟩, hfill, heq⟩ := Option.map_eq_some_iff.1 hx
          cases heq
          split at hfill
          · next hsize => exact put_fillParamCharDataBuffer hr htype hsize hfill
          · next hsize => exact put_fillCurParamCharSet hr htype hsize hfill
      · next htype =>
        obtain ⟨⟨t₁, log₁⟩, hput, heq⟩ := Option.map_eq_some_iff.1 hx
        cases heq
        exact put_putPointer hr (by simpa using htype) hput

/-- So is what `SQLPutData` puts. -/
theorem put_sqlPutData {ret : SqlReturn} (hx : t.sqlPutData p = some (ret, t', log)) :
    Put p t t' := by
  unfold sqlPutData at hx
  rcases t.h.convertHSTMTPrepared_cases with ⟨stmt, -, -, hconv⟩ | ⟨diag, hconv⟩
  · rw [hconv] at hx
    obtain ⟨⟨ret₁, t₁, log₁⟩, hput, heq⟩ := Option.map_eq_some_iff.1 hx
    cases heq
    have hp := put_putData hput
    exact ⟨hp.boundCols, hp.ipd, hp.apd⟩
  · rw [hconv] at hx
    cases hx
    exact .of_eq rfl rfl rfl

/-- `SQLParamData` keeps the bindings. -/
theorem sqlParamData_sameBound {ret : SqlReturn} {ptr : Option Addr}
    (hx : t.sqlParamData = some (ret, ptr, t')) : SameBound t.h t'.h := by
  have hnext : ∀ {t t' : Talk ρ V} {ret ptr}, t.getNextParam = some (ret, ptr, t') →
    t'.h = t.h := by
    intro t t' ret ptr hx
    unfold getNextParam at hx
    split at hx
    · cases hx
      rfl
    · split at hx
      · cases hx
      · split at hx
        · cases hx
        · cases hx
          rfl
  unfold sqlParamData at hx
  rcases t.h.convertHSTMTPrepared_cases with ⟨stmt, -, -, hconv⟩ | ⟨diag, hconv⟩
  · rw [hconv] at hx
    obtain ⟨⟨ret₁, ptr₁, t₁⟩, hget, heq⟩ := Option.map_eq_some_iff.1 hx
    cases heq
    rw [hnext hget]
    exact ⟨rfl, rfl, rfl⟩
  · rw [hconv] at hx
    cases hx
    exact ⟨rfl, rfl, rfl⟩

end Talk

/-! ## Calls -/

/-- The calls on a statement, with the memory that data at execution finds. -/
inductive StmtCall (ρ V : Type)
  | call (c : Call ρ V)
  | paramData (mem : Memory)
  | putData (p : Piece) (mem : Memory)

namespace StmtCall

/-- The call returns. A column that is bound has a number. -/
def Returns (E : Engine ρ V) (h : OdbcHandleStmt ρ V) : StmtCall ρ V → OdbcHandleStmt ρ V → Prop
  | .call c, h' => (∀ i b, c = .bindCol i b → 1 ≤ i) ∧
      ∃ n r, h.perform E n c = some (.ok r) ∧ r.h = h'
  | .paramData mem, h' => ∃ ret ptr t, (⟨h, mem⟩ : Talk ρ V).sqlParamData =
    some (ret, ptr, t) ∧ t.h = h'
  | .putData p mem, h' => ∃ ret t log,
      (⟨h, mem⟩ : Talk ρ V).sqlPutData p = some (ret, t, log) ∧ t.h = h'

/-- The column is bound anew, or all columns are released. -/
def FreesCol (c : ℕ) : StmtCall ρ V → Prop
  | .call (.bindCol i _) => i = c
  | .call .unbind => True
  | _ => False

/-- The parameter is bound anew, or all parameters are released. -/
def FreesParam (p : ℕ) : StmtCall ρ V → Prop
  | .call (.bindParameter args) => args.parameterNumber = p
  | .call .resetParams => True
  | _ => False

/-- The statements that are prepared have the column from the start on, and an execution that
learns the columns has a result with it. -/
def FitsCol (c : ℕ) (h : OdbcHandleStmt ρ V) : StmtCall ρ V → Prop
  | .call (.prepare q) => q.error = none → c ≤ q.knownColumns
  | .call (.execute a) => ∀ stmt, h.stmt = some stmt → stmt.boundAllParameters = false →
      ∀ turn, c ≤ (a.results turn).columnCount
  | .call (.execDirect statements) => ∀ l, statements = .ok l → ∀ s ∈ l,
      s.prepared.error = none → c ≤ s.prepared.knownColumns
  | _ => True

/-- The statements that are prepared have the parameter, and no data is put that moves its data
pointer. -/
def FitsParam (p : ℕ) (h : OdbcHandleStmt ρ V) : StmtCall ρ V → Prop
  | .call (.prepare q) => q.error = none → p ≤ q.paramCount
  | .call (.execDirect statements) => ∀ l, statements = .ok l → ∀ s ∈ l,
      s.prepared.error = none → p ≤ s.prepared.paramCount
  | .putData piece mem => h.paramDesc.curParamIdx + 1 = p →
      ∀ r, h.paramDesc.apd.records[p - 1]? = some r → ¬Talk.MovesPointer piece ⟨h, mem⟩ r
  | _ => True

end StmtCall

namespace OdbcHandleStmt

open StmtCall

variable {E : Engine ρ V} {h h' : OdbcHandleStmt ρ V}

/-- The calls that prepare, execute, bind or release. -/
def changesBindings : Call ρ V → Bool
  | .prepare _ | .execute _ | .execDirect _ | .bindParameter _ | .bindCol _ _ | .unbind
  | .resetParams => true
  | _ => false

/-- The other calls keep all bindings. -/
theorem perform_sameBound {n : ℕ} {r : Reply ρ V} {c : Call ρ V} (hc : changesBindings c = false)
    (hx : h.perform E n c = some (.ok r)) : SameBound h r.h := by
  cases c <;> try cases hc
  case fetch source result => exact sqlFetch_sameBound (Option.some.inj hx)
  case fetchScroll o off => exact sqlFetchScroll_sameBound (Option.some.inj hx)
  case moreResults source result => exact sqlMoreResults_sameBound (Option.some.inj hx)
  case rowCount ptr => exact sqlRowCount_sameBound (Option.some.inj hx)
  case getData num t target len ind => exact sqlGetData_sameBound (Option.some.inj hx)
  case setRowBindType size =>
    unfold perform attr at hx
    dsimp only at hx
    split at hx <;> cases hx <;> exact ⟨rfl, rfl, rfl⟩
  all_goals
    cases hx
    exact ⟨rfl, rfl, rfl⟩

/-- A call that neither frees the column nor has too few keeps it. -/
theorem HoldsCol.call {c : ℕ} {b : OdbcBoundCol} (hh : HoldsCol c b h) (hc : 1 ≤ c)
    {x : StmtCall ρ V} (hfree : ¬x.FreesCol c) (hfits : x.FitsCol c h) (hx : x.Returns E h h') :
    HoldsCol c b h' := by
  have hclean : HoldsCol c b h.convertHSTMT := hh
  cases x with
  | paramData mem =>
    obtain ⟨ret, ptr, t, ht, rfl⟩ := hx
    exact hh.of_sameBound (Talk.sqlParamData_sameBound ht)
  | putData p mem =>
    obtain ⟨ret, t, log, ht, rfl⟩ := hx
    rw [HoldsCol, (Talk.put_sqlPutData ht).boundCols]
    exact hh
  | call x =>
    obtain ⟨hnum, n, r, hr, rfl⟩ := hx
    cases hchange : changesBindings x with
    | false => exact hh.of_sameBound (perform_sameBound hchange hr)
    | true =>
      cases x with
      | prepare q =>
        cases hr
        exact HoldsCol.finalizeStmt (h := h.convertHSTMT.prepareQuery) hh hc hfits
      | execute a =>
        obtain ⟨y, hy, hr⟩ := Option.map_eq_some_iff.1 hr
        obtain ⟨x, rfl, rfl⟩ := Outcome.map_eq_ok.1 hr
        exact hclean.batchExecuteStmt hc hfits hy
      | execDirect statements =>
        obtain ⟨y, hy, hr⟩ := Option.map_eq_some_iff.1 hr
        obtain ⟨x, rfl, rfl⟩ := Outcome.map_eq_ok.1 hr
        cases statements with
        | error msg =>
          cases hy
          exact hh
        | ok l =>
          exact HoldsCol.execDirectLoop (h := h.convertHSTMT.prepareQuery) hh hc (hfits l rfl) hy
      | bindParameter args =>
        cases hr
        unfold bindParameterStmt
        split_ifs <;> exact hh
      | bindCol i b' =>
        cases hr
        have hi := hnum i b' rfl
        have hne : i - 1 ≠ c - 1 := fun heq => hfree (by simp only [StmtCall.FreesCol]; omega)
        simp only [sqlBindCol, HoldsCol, List.getElem?_set_ne hne]
        split_ifs
        · have hlen := (List.getElem?_eq_some_iff.1 hh).1
          exact getElem?_resize (by simp only [convertHSTMT] at *; omega) hh
        · exact hh
      | unbind => exact absurd trivial hfree
      | resetParams =>
        cases hr
        exact hh
      | _ => cases hchange

/-- The same for a parameter. -/
theorem HoldsParam.call {p : ℕ} {r s : DescRecord} (hh : HoldsParam p r s h) (hp : 1 ≤ p)
    {x : StmtCall ρ V} (hfree : ¬x.FreesParam p) (hfits : x.FitsParam p h) (hx : x.Returns E h h') :
    HoldsParam p r s h' := by
  have hclean : HoldsParam p r s h.convertHSTMT := hh
  cases x with
  | paramData mem =>
    obtain ⟨ret, ptr, t, ht, rfl⟩ := hx
    exact hh.of_sameBound (Talk.sqlParamData_sameBound ht)
  | putData piece mem =>
    obtain ⟨ret, t, log, ht, rfl⟩ := hx
    have hput := Talk.put_sqlPutData ht
    refine ⟨hput.apd (p - 1) r hh.1 fun heq => ?_, ?_⟩
    · have hcur : h.paramDesc.curParamIdx = p - 1 := heq.symm
      exact hfits (by omega) r hh.1
    · have hipd : t.h.paramDesc.ipd.records = h.paramDesc.ipd.records := hput.ipd
      rw [hipd]
      exact hh.2
  | call x =>
    obtain ⟨-, n, reply, hr, rfl⟩ := hx
    cases hchange : changesBindings x with
    | false => exact hh.of_sameBound (perform_sameBound hchange hr)
    | true =>
      cases x with
      | prepare q =>
        cases hr
        exact HoldsParam.finalizeStmt (h := h.convertHSTMT.prepareQuery) hh hp hfits
      | execute a =>
        obtain ⟨y, hy, hr⟩ := Option.map_eq_some_iff.1 hr
        obtain ⟨x, rfl, rfl⟩ := Outcome.map_eq_ok.1 hr
        exact hclean.batchExecuteStmt hy
      | execDirect statements =>
        obtain ⟨y, hy, hr⟩ := Option.map_eq_some_iff.1 hr
        obtain ⟨x, rfl, rfl⟩ := Outcome.map_eq_ok.1 hr
        cases statements with
        | error msg =>
          cases hy
          exact hh
        | ok l =>
          exact HoldsParam.execDirectLoop (h := h.convertHSTMT.prepareQuery) hh hp (hfits l rfl) hy
      | bindParameter args =>
        cases hr
        exact hclean.bindParameterStmt hp hfree
      | bindCol i b' =>
        cases hr
        exact hh
      | unbind =>
        cases hr
        exact hh
      | resetParams => exact absurd trivial hfree
      | _ => cases hchange

/-- The records of a parameter have the values that it was bound with. -/
structure BoundAs (args : BindParameterArgs) (r s : DescRecord) : Prop where
  dataPtr : r.dataPtr = args.parameterValuePtr
  octetLength : r.octetLength = args.bufferLength
  indicatorPtr : r.indicatorPtr = args.strLenOrIndPtr
  octetLengthPtr : r.octetLengthPtr = args.strLenOrIndPtr
  valueType : r.conciseType = args.valueType
  inputOutputType : s.parameterType = args.inputOutputType
  columnSize : s.length = args.columnSize
  decimalDigits : s.scale = args.decimalDigits
  parameterType : s.conciseType = args.parameterType

theorem conciseType_setSqlDataType (r : DescRecord) (type : ℤ) :
    (r.setSqlDataType type).conciseType = type := by
  unfold DescRecord.setSqlDataType
  split_ifs <;> rfl

theorem setSqlDataType_size (r : DescRecord) (type : ℤ) :
    (r.setSqlDataType type).parameterType = r.parameterType ∧
      (r.setSqlDataType type).length = r.length ∧ (r.setSqlDataType type).scale = r.scale := by
  unfold DescRecord.setSqlDataType
  split_ifs <;> exact ⟨rfl, rfl, rfl⟩

/-- A column that is bound is bound. -/
theorem holdsCol_sqlBindCol (h : OdbcHandleStmt ρ V) {c : ℕ} (b : OdbcBoundCol) (hc : 1 ≤ c) :
    HoldsCol c b (h.sqlBindCol c b) := by
  simp only [HoldsCol, sqlBindCol]
  rw [List.getElem?_set_self]
  split_ifs
  · simp
    omega
  · omega

/-- A parameter that is bound is bound. -/
theorem holdsParam_bindParameterStmt (h : OdbcHandleStmt ρ V) {args : BindParameterArgs}
    (htype : args.inputOutputType = 1) (hnum : 1 ≤ args.parameterNumber) :
    ∃ r s, BoundAs args r s ∧ HoldsParam args.parameterNumber r s (h.bindParameterStmt args).2 := by
  have hapd := List.getElem?_eq_getElem
    (lt_length_growTo h.paramDesc.apd (args.parameterNumber - 1))
  have hipd := List.getElem?_eq_getElem
    (lt_length_growTo h.paramDesc.ipd (args.parameterNumber - 1))
  unfold OdbcHandleStmt.bindParameterStmt
  rw [if_neg (by simpa using htype), if_neg (by omega)]
  refine ⟨_, _, ?_, by simp only [List.getElem?_modify_eq, hapd]; rfl,
    by simp only [List.getElem?_modify_eq, hipd]; rfl⟩
  exact ⟨rfl, rfl, rfl, rfl, conciseType_setSqlDataType _ _, (setSqlDataType_size _ _).1,
    (setSqlDataType_size _ _).2.1, (setSqlDataType_size _ _).2.2, conciseType_setSqlDataType _ _⟩

/-- A column and a parameter stay bound with the values that they were bound with until they are
bound anew or released, as long as the statements in between are wide enough and no data at
execution moves the pointer of the parameter. -/
theorem bindings_stay {xs : List (StmtCall ρ V)} :
    (∀ c b, 1 ≤ c → Run.Reaches (Returns E) (h.sqlBindCol c b) xs h' →
      Run.Along (Returns E) (fun h x => ¬x.FreesCol c ∧ x.FitsCol c h) (h.sqlBindCol c b) xs →
      HoldsCol c b h') ∧
    ∀ args : BindParameterArgs, args.inputOutputType = 1 → 1 ≤ args.parameterNumber →
      Run.Reaches (Returns E) (h.bindParameterStmt args).2 xs h' →
      Run.Along (Returns E) (fun h x => ¬x.FreesParam args.parameterNumber ∧
        x.FitsParam args.parameterNumber h) (h.bindParameterStmt args).2 xs →
      ∃ r s, BoundAs args r s ∧ HoldsParam args.parameterNumber r s h' := by
  refine ⟨fun c b hc hrun halong => ?_, fun args htype hnum hrun halong => ?_⟩
  · exact Run.Reaches.invariant (HoldsCol c b) (fun _ _ _ hh hx hret => hh.call hc hx.1 hx.2 hret)
      (h.holdsCol_sqlBindCol b hc) halong hrun
  · obtain ⟨r, s, hbound, hholds⟩ := h.holdsParam_bindParameterStmt htype hnum
    exact ⟨r, s, hbound, Run.Reaches.invariant (HoldsParam args.parameterNumber r s)
      (fun _ _ _ hh hx hret => hh.call hnum hx.1 hx.2 hret) hholds halong hrun⟩

/-- The second column is bound, and a statement of one column is prepared. -/
theorem not_bindings_stay : ¬ ∀ (E : Engine ℕ ℕ) (h h' : OdbcHandleStmt ℕ ℕ)
    (xs : List (StmtCall ℕ ℕ)) (c : ℕ) (b : OdbcBoundCol), 1 ≤ c →
    Run.Reaches (Returns E) (h.sqlBindCol c b) xs h' → (∀ x ∈ xs, ¬x.FreesCol c) →
    HoldsCol c b h' := by
  intro hstay
  have hholds := hstay byteEngine blank _ [.call (.prepare ⟨none, 0, 1, true, false⟩)] 2
    ⟨.char, 100, 10, 0⟩ (by decide) ⟨_, ⟨fun _ _ => nofun, 0, _, rfl, rfl⟩, rfl⟩
    (by simp [StmtCall.FreesCol])
  exact absurd (congrArg Option.isSome hholds) (by decide)

/-- The first column and the first parameter stay bound while a statement of one column and two
parameters is prepared and closed. -/
theorem bindings_stay_prepared : ∃ h' : OdbcHandleStmt ℕ ℕ,
    HoldsCol 1 ⟨.char, 100, 10, 0⟩ h' ∧
    ∃ r s, BoundAs ⟨1, 1, 1, 12, 10, 0, 500, 10, 600⟩ r s ∧ HoldsParam 1 r s h' := by
  let args : BindParameterArgs := ⟨1, 1, 1, 12, 10, 0, 500, 10, 600⟩
  let b : OdbcBoundCol := ⟨.char, 100, 10, 0⟩
  let h : OdbcHandleStmt ℕ ℕ := (blank.bindParameterStmt args).2
  let xs : List (StmtCall ℕ ℕ) := [.call (.prepare ⟨none, 2, 1, true, false⟩), .call .close]
  let h' := ((h.sqlBindCol 1 b).sqlPrepare ⟨none, 2, 1, true, false⟩).2.convertHSTMT.close
  have hrun : Run.Reaches (Returns byteEngine) (h.sqlBindCol 1 b) xs h' :=
    ⟨_, ⟨fun _ _ => nofun, 0, _, rfl, rfl⟩, _, ⟨fun _ _ => nofun, 0, _, rfl, rfl⟩, rfl⟩
  have hcol : Run.Along (Returns byteEngine) (fun h x => ¬x.FreesCol 1 ∧ x.FitsCol 1 h)
      (h.sqlBindCol 1 b) xs :=
    ⟨⟨id, fun _ => by decide⟩, fun _ _ => ⟨⟨id, trivial⟩, fun _ _ => trivial⟩⟩
  have hfirst : ∀ i b', (Call.bindCol 1 b : Call ℕ ℕ) = .bindCol i b' → 1 ≤ i := by
    rintro i b' ⟨⟩
    exact le_rfl
  have hrun' : Run.Reaches (Returns byteEngine) h (.call (.bindCol 1 b) :: xs) h' :=
    ⟨_, ⟨hfirst, 0, _, rfl, rfl⟩, hrun⟩
  have hparam : Run.Along (Returns byteEngine) (fun h x => ¬x.FreesParam 1 ∧ x.FitsParam 1 h) h
      (.call (.bindCol 1 b) :: xs) :=
    ⟨⟨id, trivial⟩, fun _ _ => ⟨⟨id, fun _ => by decide⟩,
      fun _ _ => ⟨⟨id, trivial⟩, fun _ _ => trivial⟩⟩⟩
  exact ⟨h', bindings_stay.1 1 b le_rfl hrun hcol, bindings_stay.2 args rfl le_rfl hrun' hparam⟩

end OdbcHandleStmt

end HaybarnOdbc
