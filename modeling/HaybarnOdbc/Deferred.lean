import HaybarnOdbc.Requests

/-!
# Execution after the dialogue

An execution that needs data stops at the first parameter set with data at execution : it has
read that set and has not run the statement on it (`batchExecuteStmt_needData`), be it `SQLExecute`
or `SQLExecDirect` of one statement. `SQLParamData` and `SQLPutData` run nothing, so that after the
dialogue the statement has not been executed on that set (`not_executed_after_dialogue`). What
executes it is a fetch (`ExecuteBeforeFetch`), which a statement without a result set never gets.
-/

namespace HaybarnOdbc

variable {ρ V : Type}

namespace OdbcHandleStmt

/-- A parameter set that needs data has been read, and nothing was run. -/
theorem getParamValues_needData {source : ParamSource V} {h : OdbcHandleStmt ρ V} {vs : List V}
    {x : Executed ρ V} (hx : h.getParamValues source = .ok (vs, x)) (hret : x.ret = .needData) :
    setsRead x.log = [h.paramDesc.paramsetIdx] ∧ runs x.log = 0 := by
  unfold getParamValues at hx
  split at hx
  · cases hx
    cases hret
  · obtain ⟨⟨values, y⟩, hy, hx⟩ := Outcome.bind_eq_ok.1 hx
    obtain ⟨-, -, hsets, hruns⟩ := readRecords_cases hy
    dsimp only at hx
    split at hx
    · cases hx
      exact ⟨hsets, hruns⟩
    · cases hx
      rcases setRet_eq y.h.paramDesc with hr | hr <;> exact absurd (hr.symm.trans hret) (by decide)

/-- The turn of a set that needs data reads it and runs nothing. -/
theorem singleExecuteStmt_needData {source : ParamSource V} {result : QueryResult ρ}
    {h : OdbcHandleStmt ρ V} {x : Executed ρ V} (hx : h.singleExecuteStmt source result = .ok x)
    (hret : x.ret = .needData) :
    setsRead x.log = [h.paramDesc.paramsetIdx] ∧ runs x.log = 0 := by
  unfold singleExecuteStmt at hx
  obtain ⟨⟨values, y⟩, hy, hx⟩ := Outcome.bind_eq_ok.1 hx
  dsimp only at hx
  obtain ⟨log, heq, hsets, hruns⟩ := resetLogged (h.rowsFetchedPtr ≠ 0) y
  rw [heq] at hx
  split at hx
  · cases hx
    have hread := getParamValues_needData hy hret
    exact ⟨hsets.trans hread.1, hruns.trans hread.2⟩
  · split at hx
    · cases hx
    · split at hx
      · cases hx
        cases hret
      · split at hx
        · cases hx
          cases hret
        · cases hx
          cases hret

/-- A turn of the loop that asks for another one has run the set it read. -/
theorem SingleExecuted.length_of_again {result : QueryResult ρ} {h : OdbcHandleStmt ρ V}
    {x : Executed ρ V} (hx : SingleExecuted result h x) (hret : x.ret = .stillExecuting) :
    (setsRead x.log).length = runs x.log := by
  cases hx with
  | unread hstop => rcases hstop with rfl | rfl <;> cases hret
  | failed => cases hret
  | once => cases hret
  | set _ _ _ hsets hruns =>
    rw [hsets, hruns]
    rfl

/-- The code of the batch stays, or becomes an error. -/
theorem batchFinish_ret {ret : SqlReturn} {h : OdbcHandleStmt ρ V} {log : List (ExecEvent V)}
    {x : Executed ρ V} (hx : batchFinish ret h log = .ok x) : x.ret = ret ∨ x.ret = .error := by
  unfold batchFinish at hx
  split at hx
  · cases hx
    exact .inl rfl
  · obtain ⟨⟨fetchRet, h₁⟩, -, hx⟩ := Outcome.bind_eq_ok.1 hx
    dsimp only at hx
    split at hx
    · next herror =>
      cases hx
      exact .inr herror
    · split at hx
      · cases hx
      · split at hx
        · cases hx
          exact .inl rfl
        · split at hx
          · cases hx
          · cases hx
            exact .inl rfl

/-- A batch that ends with a parameter set that needs data has run every set it read but that
one. -/
theorem batchExecuteStmt_needData {a : ExecAnswers ρ V} {h : OdbcHandleStmt ρ V} {k : ℕ}
    {x : Executed ρ V} (hx : h.batchExecuteStmt k a = some (.ok x)) (hret : x.ret = .needData) :
    (setsRead x.log).length = runs x.log + 1 := by
  obtain ⟨y, hrun, hbind⟩ := Option.map_eq_some_iff.1 hx
  obtain ⟨⟨ret, b⟩, rfl, hfinish⟩ := Outcome.bind_eq_ok.1 hbind
  obtain ⟨hlog, -, -⟩ := batchFinish_cases hfinish
  have hneed : ret = .needData := by
    rcases batchFinish_ret hfinish with hr | hr
    · exact hr.symm.trans hret
    · exact absurd (hr.symm.trans hret) (by decide)
  have hloop := DoWhile.run_invariant (batchBody a) (· = .stillExecuting)
    (fun b => (setsRead b.log).length = runs b.log)
    (fun y => ∀ ret b, y = .ok (ret, b) → ret = .needData →
      (setsRead b.log).length = runs b.log + 1) ?_ ?_ ?_ rfl hrun
  · rw [hlog]
    exact hloop ret b rfl hneed
  · intro s e _ _ ret b heq
    cases heq
  · intro s ret s' hs hbody hagain
    obtain rfl : ret = .stillExecuting := by simpa using hagain
    obtain ⟨log, hsingle, -, hlog⟩ := batchBody_cases hbody
    rw [hlog, setsRead_append, runs_append, List.length_append, hs, hsingle.length_of_again rfl]
  · intro s ret s' hs hbody _ ret' b heq hneed
    cases heq
    obtain ⟨x, hsingle, hpure⟩ := Outcome.bind_eq_ok.1 hbody
    cases hpure
    obtain ⟨hsets, hruns⟩ := singleExecuteStmt_needData hsingle hneed
    rw [setsRead_append, runs_append, hsets, hruns, List.length_append, hs]
    rfl

/-- A statement that is not prepared needs no data. -/
theorem finalizeStmt_ne_needData (h : OdbcHandleStmt ρ V) (p : PreparedStatement) :
    (h.finalizeStmt p).1 ≠ .needData := by
  unfold finalizeStmt
  cases p.error with
  | some msg => exact fun hret => nomatch hret
  | none => cases p.boundAllParameters <;> exact fun hret => nomatch hret

/-- The same of `SQLExecDirect` of one statement, which prepares it and runs its batch. -/
theorem execDirectStmt_needData {s : StatementAnswer ρ V} {h : OdbcHandleStmt ρ V} {k : ℕ}
    {x : Executed ρ V} (hx : h.execDirectStmt k (.ok [s]) = some (.ok x))
    (hret : x.ret = .needData) : (setsRead x.log).length = runs x.log + 1 := by
  change execDirectLoop k [s] .success false h.prepareQuery [] = _ at hx
  rcases hfin : h.prepareQuery.finalizeStmt s.prepared with ⟨ret₁, h₁⟩
  have hne : ret₁ ≠ .needData := fun heq =>
    finalizeStmt_ne_needData h.prepareQuery s.prepared ((congrArg Prod.fst hfin).trans heq)
  by_cases hstop : s.prepared.error.isSome ∨ ¬ret₁.succeeded
  · rw [execDirectLoop, hfin] at hx
    simp only [if_pos hstop, Option.some.injEq, Except.ok.injEq] at hx
    exact absurd ((congrArg Executed.ret hx).trans hret) hne
  · rw [execDirectLoop_cons k [] .success false [] hfin hstop] at hx
    cases hbatch : h₁.batchExecuteStmt k s.exec with
    | none => simp [hbatch] at hx
    | some y =>
      cases y with
      | error e => simp [hbatch] at hx
      | ok y =>
        simp only [hbatch, List.nil_append] at hx
        split at hx
        · cases hx
          exact batchExecuteStmt_needData hbatch hret
        · next hsucc =>
          -- nothing follows the statement, so the code is that of its batch
          simp only [execDirectLoop, Option.some.injEq, Except.ok.injEq] at hx
          obtain rfl := hx
          split at hret
          · cases hret
          · exact absurd (show y.ret = .needData from hret) fun h => hsucc (by rw [h]; decide)

end OdbcHandleStmt

/-- `SQLExecute`, or `SQLExecDirect` of one statement. -/
def Call.ExecutesOne : Call ρ V → Prop
  | .execute _ => True
  | .execDirect (.ok [_]) => True
  | _ => False

/-- An execution that needs data has read one parameter set more than it ran. -/
theorem perform_needData {E : Engine ρ V} {h : OdbcHandleStmt ρ V} {c : Call ρ V} {k : ℕ}
    {r : Reply ρ V} (hone : c.ExecutesOne) (hexecute : h.perform E k c = some (.ok r))
    (hneed : r.ret = .needData) : (setsRead r.log).length = runs r.log + 1 := by
  cases c with
  | execute a =>
    obtain ⟨y, hy, hmap⟩ := Option.map_eq_some_iff.1 hexecute
    obtain ⟨z, rfl, rfl⟩ := Outcome.map_eq_ok.1 hmap
    exact OdbcHandleStmt.batchExecuteStmt_needData hy hneed
  | execDirect statements =>
    match statements, hone with
    | .ok [s], _ =>
      obtain ⟨y, hy, hmap⟩ := Option.map_eq_some_iff.1 hexecute
      obtain ⟨z, rfl, rfl⟩ := Outcome.map_eq_ok.1 hmap
      exact OdbcHandleStmt.execDirectStmt_needData hy hneed
  | _ => exact hone.elim

/-! ## The calls of the dialogue -/

/-- The calls of the dialogue. -/
inductive DialogueCall
  | paramData
  | putData (p : Piece)

namespace Talk

/-- One of them, with the executions it logs. -/
def call (t : Talk ρ V) : DialogueCall → Option (SqlReturn × Talk ρ V × List (ExecEvent V))
  | .paramData => t.sqlParamData.map fun r => (r.1, r.2.2, [])
  | .putData p => (t.sqlPutData p).map fun r => (r.1, r.2.1, [])

/-- One after another, with their codes. -/
def calls : List DialogueCall → Talk ρ V →
    Option (List SqlReturn × Talk ρ V × List (ExecEvent V))
  | [], t => some ([], t, [])
  | c :: cs, t =>
    match t.call c with
    | none => none
    | some (ret, t', log) => (calls cs t').map fun (rets, t'', log') =>
    (ret :: rets, t'', log ++ log')

/-- They run no statement and read no parameter set. -/
theorem log_calls {cs : List DialogueCall} {t t' : Talk ρ V} {rets : List SqlReturn}
    {log : List (ExecEvent V)} (h : t.calls cs = some (rets, t', log)) : log = [] := by
  induction cs generalizing t rets log with
  | nil =>
    cases h
    rfl
  | cons c cs ih =>
    rw [calls] at h
    cases hc : t.call c with
    | none => simp [hc] at h
    | some r =>
      have hlog : r.2.2 = [] := by
        cases c <;> obtain ⟨s, -, rfl⟩ := Option.map_eq_some_iff.1 hc <;> rfl
      simp only [hc] at h
      obtain ⟨⟨rets', t'', log'⟩, hs, heq⟩ := Option.map_eq_some_iff.1 h
      simp only [Prod.mk.injEq] at heq
      obtain ⟨-, rfl, rfl⟩ := heq
      rw [hlog, ih hs]
      rfl

end Talk

/-- The statement was executed once for each of `n` parameter sets. -/
def ExecutedOnEach (n : ℕ) (log : List (ExecEvent V)) : Prop :=
  setsRead log = List.range n ∧ runs log = n

/-- After an execution by `SQLExecute`, or by `SQLExecDirect` of one statement, that needs data,
and any calls of the dialogue, whatever they return, the statement has not been executed once
for each parameter set. -/
theorem not_executed_after_dialogue (E : Engine ρ V) (h : OdbcHandleStmt ρ V) (c : Call ρ V)
    (hone : c.ExecutesOne) (k : ℕ) (r : Reply ρ V) (mem : Memory) (cs : List DialogueCall)
    (rets : List SqlReturn) (t : Talk ρ V) (log : List (ExecEvent V))
    (hexecute : h.perform E k c = some (.ok r)) (hneed : r.ret = .needData)
    (hcalls : (Talk.mk r.h mem).calls cs = some (rets, t, log)) (n : ℕ) :
    ¬ExecutedOnEach n (r.log ++ log) := by
  rintro ⟨hsets, hruns⟩
  have hlength := perform_needData hone hexecute hneed
  rw [Talk.log_calls hcalls, List.append_nil] at hsets hruns
  rw [hsets, hruns, List.length_range] at hlength
  omega

/-- An INSERT with one parameter whose data comes at execution. -/
def insertAtExec : Talk ℕ ℕ := Talk.ofParams [(1, 3, -2)]

/-- The engine's part : there is a value to come. -/
def needsData : ExecAnswers ℕ ℕ := ⟨fun _ _ => .needData, fun _ => queryResult 1 []⟩

/-- The dialogue of one value in one piece. -/
def oneValue : List DialogueCall := [.paramData, .putData (Talk.pieceOf [98, 97, 114]), .paramData]

/-- The dialogue of the INSERT succeeds, and nothing was run. -/
theorem insert_dialogue :
    ∃ r rets t log, insertAtExec.h.perform byteEngine 1 (.execute needsData) = some (.ok r) ∧
      r.ret = .needData ∧ (Talk.mk r.h insertAtExec.mem).calls oneValue = some (rets, t, log) ∧
      rets = [.needData, .success, .success] ∧ runs (r.log ++ log) = 0 :=
  ⟨_, _, _, _, rfl, rfl, rfl, rfl, rfl⟩

/-- The dialogue succeeds, and the INSERT was not executed. -/
theorem insert_not_executed :
    ∃ r rets t log, insertAtExec.h.perform byteEngine 1 (.execute needsData) = some (.ok r) ∧
      r.ret = .needData ∧ (Talk.mk r.h insertAtExec.mem).calls oneValue = some (rets, t, log) ∧
      rets = [.needData, .success, .success] ∧ ¬ExecutedOnEach 1 (r.log ++ log) := by
  obtain ⟨r, rets, t, log, hexecute, hneed, hcalls, hrets, hruns⟩ := insert_dialogue
  refine ⟨r, rets, t, log, hexecute, hneed, hcalls, hrets, fun h => ?_⟩
  have hone := hruns.symm.trans h.2
  cases hone

/-- The INSERT was not executed on its one set. -/
theorem insert_not_executed_after_dialogue :
    ∃ r rets t log, insertAtExec.h.perform byteEngine 1 (.execute needsData) = some (.ok r) ∧
      (Talk.mk r.h insertAtExec.mem).calls oneValue = some (rets, t, log) ∧
      ¬ExecutedOnEach 1 (r.log ++ log) := by
  obtain ⟨r, rets, t, log, hexecute, hneed, hcalls, -⟩ := insert_dialogue
  exact ⟨r, rets, t, log, hexecute, hcalls, not_executed_after_dialogue byteEngine _
    (.execute needsData) trivial 1 r _ oneValue rets t log hexecute hneed hcalls 1⟩

end HaybarnOdbc
