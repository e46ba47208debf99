import HaybarnOdbc.Lib.Outcome
import HaybarnOdbc.Lib.Run
import HaybarnOdbc.Api

/-!
# Executing over arrays of parameters

`ParamsRead` and `SingleExecuted` say once what reading a parameter set and executing the
statement can do. A batch whose index of parameter sets starts at `0` is then read as a
loop that has done `k` sets after `k` turns (`SetsDone`), so that it ends after the last
one (`batch_ends`).

Only `SQL_CLOSE` and `SQL_RESET_PARAMS` put the index back to `0`. `executions_read_sets`
is about the calls that start there, and `execution_after_failure` a run with one that
does not.
-/

namespace HaybarnOdbc

variable {ρ V : Type}

/-- The parameter sets that were read, in order. -/
def setsRead (log : List (ExecEvent V)) : List ℕ :=
  log.filterMap fun
    | .readSet set => some set
    | _ => none

/-- The number of runs of a prepared statement. -/
def runs (log : List (ExecEvent V)) : ℕ :=
  log.countP fun
    | .run _ => true
    | _ => false

@[simp] theorem setsRead_nil : setsRead ([] : List (ExecEvent V)) = [] := rfl

@[simp] theorem runs_nil : runs ([] : List (ExecEvent V)) = 0 := rfl

@[simp] theorem setsRead_append (l l' : List (ExecEvent V)) :
    setsRead (l ++ l') = setsRead l ++ setsRead l' := by
  simp [setsRead]

@[simp] theorem runs_append (l l' : List (ExecEvent V)) : runs (l ++ l') = runs l + runs l' := by
  simp [runs]

namespace OdbcHandleStmt

/-- What reading the records of a parameter set can do : it changes the stored values and
the diagnostics, and logs statuses only. -/
theorem readRecords_cases {source : ParamSource V} {recs : List ℕ} {values : List V}
    {h : OdbcHandleStmt ρ V} {log : List (ExecEvent V)} {vs : List V} {x : Executed ρ V}
    (hx : readRecords source recs values h log = .ok (vs, x)) :
    (x.ret = .success ∨ x.ret = .needData ∨ x.ret = .error) ∧
      (∃ vals diag, x.h = { h with paramDesc.values := vals, diag := diag }) ∧
      setsRead x.log = setsRead log ∧ runs x.log = runs log := by
  induction recs generalizing values h log with
  | nil =>
    simp only [readRecords, Except.ok.injEq, Prod.mk.injEq] at hx
    obtain ⟨-, rfl⟩ := hx
    exact ⟨.inl rfl, ⟨h.paramDesc.values, h.diag, rfl⟩, rfl, rfl⟩
  | cons recIdx rest ih =>
    -- the value of the record is stored, and its status is logged if there is an array for it
    have hset : ∃ vals, (h.paramDesc.setValue source recIdx).2 =
      { h.paramDesc with values := vals } := by
      unfold ParameterDescriptor.setValue ParameterDescriptor.putValue
      split
      · split <;> exact ⟨_, rfl⟩
      · exact ⟨_, rfl⟩
      · exact ⟨_, rfl⟩
    obtain ⟨vals, hvals⟩ := hset
    have hlog : ∀ (c : Prop) [Decidable c] (set : ℕ) (ret : SqlReturn),
        setsRead (log ++ if c then [.paramStatus set ret] else []) = setsRead log ∧
        runs (log ++ if c then [.paramStatus set ret] else []) = runs log := by
      intro c _ set ret
      split <;> simp [setsRead, runs]
    simp only [readRecords] at hx
    split at hx
    · simp only [Except.ok.injEq, Prod.mk.injEq] at hx
      obtain ⟨-, rfl⟩ := hx
      exact ⟨.inr (.inl rfl), ⟨vals, h.diag, by simp [hvals]⟩, hlog _ _ _⟩
    · split at hx
      · simp only [Except.ok.injEq, Prod.mk.injEq] at hx
        obtain ⟨-, rfl⟩ := hx
        refine ⟨.inr (.inr rfl), ⟨vals, ?_⟩, hlog _ _ _⟩
        split
        · exact ⟨_, by simp only [hvals]; rfl⟩
        · exact ⟨_, by simp only [hvals]; rfl⟩
      · split at hx
        · cases hx
        · obtain ⟨hret, ⟨vals', diag, hh⟩, hsets, hruns⟩ := ih hx
          refine ⟨hret, ⟨vals', diag, ?_⟩, hsets.trans (hlog _ _ _).1, hruns.trans (hlog _ _ _).2⟩
          rw [hh]
          split
          · simp only [hvals]; rfl
          · simp only [hvals]

/-- The code after a set was read : success if it was the last one. -/
def setRet (p : ParameterDescriptor V) : SqlReturn :=
  if (p.paramsetIdx + 1) % 2 ^ 64 = p.apd.header.arraySize then .success else .stillExecuting

/-- Reading a set either ends the batch or asks for another turn. -/
theorem setRet_eq (p : ParameterDescriptor V) :
    setRet p = .success ∨ setRet p = .stillExecuting := by
  unfold setRet
  split
  · exact .inl rfl
  · exact .inr rfl

/-- What `GetParamValues` can do. -/
inductive ParamsRead (h : OdbcHandleStmt ρ V) : Executed ρ V → Prop
  | none (hrec : h.paramDesc.ipd.records = []) : ParamsRead h ⟨.success, h, []⟩
  | failed {ret : SqlReturn} {vals : List V} {diag : List DiagRecord} {log : List (ExecEvent V)}
      (hret : ret = .needData ∨ ret = .error) :
      ParamsRead h ⟨ret, { h with paramDesc.values := vals, diag := diag }, log⟩
  | set {vals : List V} {diag : List DiagRecord} {log : List (ExecEvent V)}
      (hrec : h.paramDesc.ipd.records ≠ []) (hsets : setsRead log = [h.paramDesc.paramsetIdx])
      (hruns : runs log = 0) :
      ParamsRead h ⟨setRet h.paramDesc,
        { h with
          paramDesc :=
            { h.paramDesc with
              values := vals, paramsetIdx := (h.paramDesc.paramsetIdx + 1) % 2 ^ 64 },
          diag := diag }, log⟩

/-- What reading a set does. -/
theorem getParamValues_cases {source : ParamSource V} {h : OdbcHandleStmt ρ V} {vs : List V}
    {x : Executed ρ V} (hx : h.getParamValues source = .ok (vs, x)) : ParamsRead h x := by
  unfold getParamValues at hx
  split at hx
  · next hrec =>
    cases hx
    exact .none (List.isEmpty_iff.1 hrec)
  · next hrec =>
    obtain ⟨⟨values, y⟩, hy, hx⟩ := Outcome.bind_eq_ok.1 hx
    obtain ⟨hret, ⟨vals, diag, hh⟩, hsets, hruns⟩ := readRecords_cases hy
    obtain ⟨ret, h', log⟩ := y
    simp only at hh hret hsets hruns hx
    subst hh
    split at hx
    · next hne =>
      cases hx
      exact .failed (hret.resolve_left hne)
    · have hlog : ∀ (c : Prop) [Decidable c] (n : ℕ),
          setsRead (log ++ if c then [.processed n] else []) = setsRead log ∧
          runs (log ++ if c then [.processed n] else []) = runs log := by
        intro c _ n
        split <;> simp [setsRead, runs]
      cases hx
      refine .set (fun hnil => hrec (by simp [hnil])) ?_ ?_
      · exact (hlog _ _).1.trans (by simpa [setsRead] using hsets)
      · exact (hlog _ _).2.trans (by simpa [runs] using hruns)

/-- The handle while its statement is being executed. -/
def started (h : OdbcHandleStmt ρ V) : OdbcHandleStmt ρ V :=
  { h with res := none, odbcFetcher := h.odbcFetcher.clearChunks, opened := false }

/-- What `SingleExecuteStmt` can do, where the engine answers `result`. -/
inductive SingleExecuted (result : QueryResult ρ) (h : OdbcHandleStmt ρ V) : Executed ρ V → Prop
  | unread {ret : SqlReturn} {vals : List V} {diag : List DiagRecord} {log : List (ExecEvent V)}
      (hret : ret = .needData ∨ ret = .error) :
      SingleExecuted result h
        ⟨ret, { h.started with paramDesc.values := vals, diag := diag }, log⟩
  | failed {p : ParameterDescriptor V} {diag : List DiagRecord} {log : List (ExecEvent V)}
      (hstmt : h.stmt.isSome) (herr : result.error.isSome) :
      SingleExecuted result h
        ⟨.error, { h.started with paramDesc := p, diag := diag, res := some result }, log⟩
  | once {diag : List DiagRecord} {log : List (ExecEvent V)}
      (hstmt : h.stmt.isSome) (herr : result.error = none) (hrec : h.paramDesc.ipd.records = [])
      (hsets : setsRead log = []) (hruns : runs log = 1) :
      SingleExecuted result h
        ⟨.success, { h.started with diag := diag, res := some result, opened := true }, log⟩
  | set {vals : List V} {diag : List DiagRecord} {log : List (ExecEvent V)}
      (hstmt : h.stmt.isSome) (herr : result.error = none) (hrec : h.paramDesc.ipd.records ≠ [])
      (hsets : setsRead log = [h.paramDesc.paramsetIdx]) (hruns : runs log = 1) :
      SingleExecuted result h
        ⟨setRet h.paramDesc,
          { h.started with
            paramDesc :=
              { h.paramDesc with
                values := vals, paramsetIdx := (h.paramDesc.paramsetIdx + 1) % 2 ^ 64 },
            diag := diag, res := some result, opened := true }, log⟩

/-- The reset of the row count is logged in front of what the reading logs. -/
theorem resetLogged (c : Prop) [Decidable c] (y : Executed ρ V) :
    ∃ log, (if c then { y with log := .rowsFetchedReset :: y.log } else y) = ⟨y.ret, y.h, log⟩ ∧
      setsRead log = setsRead y.log ∧ runs log = runs y.log := by
  split
  · exact ⟨_, rfl, rfl, rfl⟩
  · exact ⟨_, rfl, rfl, rfl⟩

/-- What a turn of the batch does. -/
theorem singleExecuteStmt_cases {source : ParamSource V} {result : QueryResult ρ}
    {h : OdbcHandleStmt ρ V} {x : Executed ρ V}
    (hx : h.singleExecuteStmt source result = .ok x) : SingleExecuted result h x := by
  unfold singleExecuteStmt at hx
  obtain ⟨⟨values, y⟩, hy, hx⟩ := Outcome.bind_eq_ok.1 hx
  have hread : ParamsRead h.started y := getParamValues_cases hy
  simp only at hx
  obtain ⟨log, heq, hlogsets, hlogruns⟩ := resetLogged (h.rowsFetchedPtr ≠ 0) y
  rw [heq] at hx
  clear heq hy
  split at hx
  · next hstop =>
    cases hx
    cases hread with
    | none => simp at hstop
    | failed hret => exact .unread hret
    | set => rcases setRet_eq h.started.paramDesc with hr | hr <;> simp [hr] at hstop
  · next hgo =>
    split at hx
    · cases hx
    · next stmt hstmt =>
      have hsome : h.stmt.isSome := by
        cases hread <;> simp_all [started]
      split at hx
      · next msg herr =>
        cases hx
        cases hread with
        | none => exact .failed hsome (by simp [herr])
        | failed hret => exact .failed hsome (by simp [herr])
        | set => exact .failed hsome (by simp [herr])
      · next herr =>
        cases hread with
        | none hrec =>
          cases hx
          exact .once hsome herr hrec (by simpa [setsRead] using hlogsets)
            (by simpa [runs] using hlogruns)
        | failed hret => exact absurd hret hgo
        | @set vals diag _ hrec hsets hruns =>
          have hlog : setsRead (log ++ [.run values]) = [h.paramDesc.paramsetIdx] ∧
              runs (log ++ [.run values]) = 1 := by
            rw [setsRead_append, runs_append, hlogsets, hlogruns, hsets, hruns]
            exact ⟨rfl, rfl⟩
          have hdone := @SingleExecuted.set _ _ result h vals diag _ hsome herr hrec hlog.1 hlog.2
          rcases setRet_eq h.paramDesc with hr | hr
          · rw [if_neg (by simp [started, hr])] at hx
            cases hx
            rwa [hr] at hdone
          · rw [if_pos (by simp [started, hr])] at hx
            cases hx
            rwa [hr] at hdone

/-- A turn that succeeds is the last one. -/
theorem SingleExecuted.eq_success {result : QueryResult ρ} {h : OdbcHandleStmt ρ V}
    {x : Executed ρ V} (hx : SingleExecuted result h x) (hs : x.ret.succeeded) :
    x.ret = .success := by
  cases hx with
  | unread hret => rcases hret with rfl | rfl <;> simp [SqlReturn.succeeded] at hs
  | failed => simp [SqlReturn.succeeded] at hs
  | once => rfl
  | set =>
    rcases setRet_eq h.paramDesc with hr | hr
    · exact hr
    · simp [hr, SqlReturn.succeeded] at hs

/-- Without parameters there is one turn. -/
theorem SingleExecuted.ne_stillExecuting {result : QueryResult ρ} {h : OdbcHandleStmt ρ V}
    {x : Executed ρ V} (hx : SingleExecuted result h x) (hrec : h.paramDesc.ipd.records = []) :
    x.ret ≠ .stillExecuting := by
  cases hx with
  | unread hret => rcases hret with rfl | rfl <;> simp
  | failed => simp
  | once => simp
  | set _ _ hne => exact absurd hrec hne

/-! ## The loop of a batch -/

/-- The loop of `BatchExecuteStmt` ends with the result `x`. -/
def BatchEnds (a : ExecAnswers ρ V) (h : OdbcHandleStmt ρ V)
    (x : Except Fault (SqlReturn × Batch ρ V)) : Prop :=
  DoWhile.Ends (batchBody a) (· = .stillExecuting) ⟨h, 0, []⟩ x

/-- A turn of the loop is one execution, logged behind the others. -/
theorem batchBody_cases {a : ExecAnswers ρ V} {b b' : Batch ρ V} {ret : SqlReturn}
    (hb : batchBody a b = .ok (ret, b')) :
    ∃ log, SingleExecuted (a.results b.turn) b.h ⟨ret, b'.h, log⟩ ∧ b'.turn = b.turn + 1 ∧
      b'.log = b.log ++ log := by
  obtain ⟨x, hx, hpure⟩ := Outcome.bind_eq_ok.1 hb
  cases hpure
  exact ⟨x.log, singleExecuteStmt_cases hx, rfl, rfl⟩

/-- A batch whose index starts at `0` has read the first `k` sets and run the statement on
each of them. -/
structure SetsDone (p : ParameterDescriptor V) (b : Batch ρ V) (k : ℕ) : Prop where
  apd : b.h.paramDesc.apd = p.apd
  ipd : b.h.paramDesc.ipd = p.ipd
  idx : b.h.paramDesc.paramsetIdx = k
  sets : setsRead b.log = List.range k
  runs : runs b.log = k

/-- A turn does the next set, and the last turn the last set. -/
theorem SetsDone.step {a : ExecAnswers ρ V} {p : ParameterDescriptor V} {b b' : Batch ρ V} {k : ℕ}
    {ret : SqlReturn} (hd : SetsDone p b k) (hrec : p.ipd.records ≠ []) (hk : k < 2 ^ 64 - 1)
    (hb : batchBody a b = .ok (ret, b')) (hret : ret = .success ∨ ret = .stillExecuting) :
    SetsDone p b' (k + 1) ∧ (ret = .success ↔ k + 1 = p.apd.header.arraySize) := by
  obtain ⟨log, hx, -, hlog⟩ := batchBody_cases hb
  have hmod : (k + 1) % 2 ^ 64 = k + 1 := Nat.mod_eq_of_lt (by omega)
  obtain ⟨h', turn', log'⟩ := b'
  simp only at hlog hx
  subst hlog
  cases hx with
  | unread hstop => rcases hret with rfl | rfl <;> simp at hstop
  | failed => simp at hret
  | once _ _ hnil => exact absurd (hd.ipd ▸ hnil) hrec
  | set _ _ _ hsets hruns =>
    refine ⟨⟨hd.apd, hd.ipd, ?_, ?_, ?_⟩, ?_⟩
    · simp only [hd.idx, hmod]
    · rw [setsRead_append, hd.sets, hsets, hd.idx, List.range_succ]
    · rw [runs_append, hd.runs, hruns]
    · simp only [setRet, hd.idx, hmod, hd.apd]
      split <;> simp_all

/-- A batch of `n` sets whose index starts at `0` ends; unless it fails, it has read the
sets `0` to `n - 1` and run the statement on each. -/
theorem batch_ends {a : ExecAnswers ρ V} {h : OdbcHandleStmt ρ V} {n : ℕ}
    (hrec : h.paramDesc.ipd.records ≠ []) (hn : h.paramDesc.apd.header.arraySize = n)
    (hpos : 1 ≤ n) (hlt : n < 2 ^ 64) (hidx : h.paramDesc.paramsetIdx = 0) :
    ∃ x, BatchEnds a h x ∧
      ∀ ret b, x = .ok (ret, b) → ret.succeeded → SetsDone h.paramDesc b n := by
  refine DoWhile.exists_ends (batchBody a) (· = .stillExecuting)
    (fun b => ∃ k, k < n ∧ SetsDone h.paramDesc b k) (fun b => n - b.h.paramDesc.paramsetIdx)
    (fun x => ∀ ret b, x = .ok (ret, b) → ret.succeeded → SetsDone h.paramDesc b n)
    ?_ ?_ ?_ ⟨h, 0, []⟩ ⟨0, hpos, rfl, rfl, hidx, rfl, rfl⟩
  · intro s e _ _ ret b hcontra
    cases hcontra
  · rintro b ret b' ⟨k, hk, hd⟩ hb hagain
    have hret : ret = .stillExecuting := by simpa using hagain
    obtain ⟨hd', hlast⟩ := hd.step hrec (by omega) hb (.inr hret)
    have hne : k + 1 ≠ n := fun heq => by simp [hlast.2 (heq.trans hn.symm)] at hret
    refine ⟨⟨k + 1, by omega, hd'⟩, ?_⟩
    rw [hd.idx, hd'.idx]
    omega
  · rintro b ret b' ⟨k, hk, hd⟩ hb hstop ret₁ b₁ heq hsucc
    cases heq
    have hret : ret = .success := by
      obtain ⟨log, hx, -, -⟩ := batchBody_cases hb
      exact hx.eq_success hsucc
    obtain ⟨hd', hlast⟩ := hd.step hrec (by omega) hb (.inl hret)
    have heq : k + 1 = n := (hlast.1 hret).trans hn
    exact heq ▸ hd'

/-- A statement without parameters is run once. -/
theorem batch_once {a : ExecAnswers ρ V} {h : OdbcHandleStmt ρ V}
    (hrec : h.paramDesc.ipd.records = []) :
    ∃ x, BatchEnds a h x ∧ ∀ ret b, x = .ok (ret, b) → ret.succeeded →
      b.h.paramDesc = h.paramDesc ∧ setsRead b.log = [] ∧ runs b.log = 1 := by
  cases hb : batchBody a ⟨h, 0, []⟩ with
  | error e =>
    exact ⟨_, DoWhile.ends_of_error hb, by simp⟩
  | ok p =>
    obtain ⟨ret, b⟩ := p
    obtain ⟨log, hx, -, hlog⟩ := batchBody_cases hb
    refine ⟨_, DoWhile.ends_of_stop hb (by simpa using hx.ne_stillExecuting hrec), ?_⟩
    rintro ret₁ b₁ heq hsucc
    cases heq
    obtain ⟨h', turn', log'⟩ := b
    simp only at hlog hx
    subst hlog
    cases hx with
    | unread hret => rcases hret with rfl | rfl <;> simp [SqlReturn.succeeded] at hsucc
    | failed => simp [SqlReturn.succeeded] at hsucc
    | once _ _ _ hsets hruns => exact ⟨rfl, by simpa using hsets, by simpa using hruns⟩
    | set _ _ hne => exact absurd hrec hne

/-- What `BatchExecuteStmt` does after its loop keeps the parameters and the log, and does
not turn a failure into a success. -/
theorem batchFinish_cases {ret : SqlReturn} {h : OdbcHandleStmt ρ V} {log : List (ExecEvent V)}
    {x : Executed ρ V} (hx : batchFinish ret h log = .ok x) :
    x.log = log ∧ x.h.paramDesc = h.paramDesc ∧ (x.ret.succeeded → ret.succeeded) := by
  unfold batchFinish at hx
  split at hx
  · cases hx
    exact ⟨rfl, rfl, id⟩
  · next hsucc =>
    obtain ⟨⟨fetchRet, h₁⟩, hfirst, hx⟩ := Outcome.bind_eq_ok.1 hx
    have hparam := (moved_fetchFirst hfirst).paramDesc
    have hret : ret.succeeded := by simpa using hsucc
    dsimp only at hx
    split at hx
    · cases hx
      exact ⟨rfl, hparam, fun _ => hret⟩
    · split at hx
      · cases hx
      · split at hx
        · cases hx
          exact ⟨rfl, hparam, fun _ => hret⟩
        · split at hx
          · cases hx
          · cases hx
            exact ⟨rfl, hparam, fun _ => hret⟩

/-- A batch whose loop ends has an outcome, for enough turns. -/
theorem exists_batchExecuteStmt {a : ExecAnswers ρ V} {h : OdbcHandleStmt ρ V}
    {x : Except Fault (SqlReturn × Batch ρ V)} (hx : BatchEnds a h x) :
    ∃ k y, ∀ m, k ≤ m → h.batchExecuteStmt m a = some y := by
  obtain ⟨k, hk⟩ := hx
  refine ⟨k, x >>= fun p => batchFinish p.1 p.2.h p.2.log, fun m hm => ?_⟩
  rw [batchExecuteStmt, DoWhile.run_mono hk hm]
  rfl

/-- A successful batch is the end of its loop. -/
theorem batchExecuteStmt_cases {a : ExecAnswers ρ V} {h : OdbcHandleStmt ρ V} {k : ℕ}
    {y : Executed ρ V} (hy : h.batchExecuteStmt k a = some (.ok y)) (hs : y.ret.succeeded) :
    ∃ ret b, BatchEnds a h (.ok (ret, b)) ∧ ret.succeeded ∧ y.log = b.log ∧
      y.h.paramDesc = b.h.paramDesc := by
  obtain ⟨x, hrun, hx⟩ := Option.map_eq_some_iff.1 hy
  obtain ⟨⟨ret, b⟩, rfl, hfinish⟩ := Outcome.bind_eq_ok.1 hx
  obtain ⟨hlog, hparam, hsucc⟩ := batchFinish_cases hfinish
  exact ⟨ret, b, ⟨k, hrun⟩, hsucc hs, hlog, hparam⟩

/-! ## The calls that execute -/

/-- The parameter sets that statements with these numbers of parameters read when they are
executed over `n` sets. -/
def setsOf (n : ℕ) (counts : List ℕ) : List ℕ :=
  counts.flatMap fun count => if count = 0 then [] else List.range n

/-- The number of times they are run. -/
def runsOf (n : ℕ) (counts : List ℕ) : ℕ :=
  (counts.map fun count => if count = 0 then 1 else n).sum

/-- `SQLExecute` over `n` sets returns and, unless it fails, reads the sets `0` to `n - 1`
and runs the statement once on each. -/
def ExecutesSets (E : Engine ρ V) (h : OdbcHandleStmt ρ V) (c : Call ρ V) (counts : List ℕ) :
    Prop :=
  1 ≤ h.paramDesc.apd.header.arraySize → h.paramDesc.apd.header.arraySize < 2 ^ 64 →
    (∃ k x, h.perform E k c = some x) ∧
    ∀ k r, h.perform E k c = some (.ok r) → r.ret.succeeded →
      setsRead r.log = setsOf h.paramDesc.apd.header.arraySize counts ∧
      runs r.log = runsOf h.paramDesc.apd.header.arraySize counts

/-- Each executing call does what `ExecutesSets` says, for its statements. -/
def ReadsItsSets (E : Engine ρ V) (h : OdbcHandleStmt ρ V) (c : Call ρ V) : Prop :=
  match c with
  | .execute _ => ExecutesSets E h c [h.paramDesc.ipd.records.length]
  | .execDirect (.ok statements) =>
    ExecutesSets E h c (statements.map fun s => s.prepared.paramCount)
  | _ => True

/-- The condition on an executing call : the index of the parameter sets is `0`, and at
most one statement of a text has parameters. -/
def StartsAtFirstSet (h : OdbcHandleStmt ρ V) : Call ρ V → Prop
  | .execute _ => h.paramDesc.paramsetIdx = 0
  | .execDirect (.ok statements) => h.paramDesc.paramsetIdx = 0 ∧
      (statements.countP fun s => s.prepared.paramCount ≠ 0) ≤ 1
  | _ => True

/-- What a batch has done when it succeeded. -/
structure BatchDone (p : ParameterDescriptor V) (y : Executed ρ V) : Prop where
  apd : y.h.paramDesc.apd = p.apd
  sets : setsRead y.log = setsOf p.apd.header.arraySize [p.ipd.records.length]
  runs : runs y.log = runsOf p.apd.header.arraySize [p.ipd.records.length]
  idx : p.ipd.records = [] → y.h.paramDesc.paramsetIdx = p.paramsetIdx

/-- A batch has an outcome, for enough turns, and a successful one has read its sets. -/
theorem batchExecuteStmt_reads (a : ExecAnswers ρ V) {h : OdbcHandleStmt ρ V}
    (hpos : 1 ≤ h.paramDesc.apd.header.arraySize) (hlt : h.paramDesc.apd.header.arraySize < 2 ^ 64)
    (hidx : h.paramDesc.ipd.records ≠ [] → h.paramDesc.paramsetIdx = 0) :
    (∃ k y, ∀ m, k ≤ m → h.batchExecuteStmt m a = some y) ∧
    ∀ k y, h.batchExecuteStmt k a = some (.ok y) → y.ret.succeeded → BatchDone h.paramDesc y := by
  by_cases hrec : h.paramDesc.ipd.records = []
  · obtain ⟨x, hx, hdone⟩ := batch_once (a := a) hrec
    refine ⟨exists_batchExecuteStmt hx, fun k y hy hs => ?_⟩
    obtain ⟨ret, b, hend, hret, hlog, hparam⟩ := batchExecuteStmt_cases hy hs
    obtain ⟨hparam', hsets, hruns⟩ := hdone ret b (hx.unique hend) hret
    rw [hparam'] at hparam
    refine ⟨by rw [hparam], ?_, ?_, fun _ => by rw [hparam]⟩
    · rw [hlog, hsets]
      simp [setsOf, hrec]
    · rw [hlog, hruns]
      simp [runsOf, hrec]
  · obtain ⟨x, hx, hdone⟩ := batch_ends (a := a) hrec rfl hpos hlt (hidx hrec)
    refine ⟨exists_batchExecuteStmt hx, fun k y hy hs => ?_⟩
    obtain ⟨ret, b, hend, hret, hlog, hparam⟩ := batchExecuteStmt_cases hy hs
    have hd := hdone ret b (hx.unique hend) hret
    refine ⟨by rw [hparam]; exact hd.apd, ?_, ?_, fun hnil => absurd hnil hrec⟩
    · rw [hlog, hd.sets]
      simp [setsOf, hrec]
    · rw [hlog, hd.runs]
      simp [runsOf, hrec]

/-- `SQLExecute` from the first set on reads every set. -/
theorem execute_reads {E : Engine ρ V} {h : OdbcHandleStmt ρ V} {a : ExecAnswers ρ V}
    (hidx : h.paramDesc.paramsetIdx = 0) :
    ExecutesSets E h (.execute a) [h.paramDesc.ipd.records.length] := by
  intro hpos hlt
  obtain ⟨⟨k, y, hk⟩, hdone⟩ :=
    batchExecuteStmt_reads a (h := h.convertHSTMT) hpos hlt fun _ => hidx
  refine ⟨⟨k, _, by rw [perform, hk k (Nat.le_refl k)]; rfl⟩, ?_⟩
  intro k r hr hs
  obtain ⟨y, hy, hmap⟩ := Option.map_eq_some_iff.1 hr
  obtain ⟨z, rfl, rfl⟩ := Outcome.map_eq_ok.1 hmap
  have hd := hdone k z hy hs
  exact ⟨hd.sets, hd.runs⟩

/-- A prepared statement has its parameters. -/
theorem finalizeStmt_paramDesc (h : OdbcHandleStmt ρ V) {p : PreparedStatement}
    (hp : p.error = none) :
    (h.finalizeStmt p).2.paramDesc = h.paramDesc.resetParams p.paramCount := by
  unfold finalizeStmt
  simp only [hp]
  by_cases hb : p.boundAllParameters <;> simp [hb, setDiagnosticRecord]

/-- A turn of the loop over the statements of a text, once one is prepared. -/
theorem execDirectLoop_cons (m : ℕ) {s : StatementAnswer ρ V} (rest : List (StatementAnswer ρ V))
    (ret : SqlReturn) (info : Bool) {h h₁ : OdbcHandleStmt ρ V} (log : List (ExecEvent V))
    {ret₁ : SqlReturn} (hfin : h.finalizeStmt s.prepared = (ret₁, h₁))
    (hgo : ¬(s.prepared.error.isSome ∨ ¬ret₁.succeeded)) :
    execDirectLoop m (s :: rest) ret info h log =
      match h₁.batchExecuteStmt m s.exec with
      | none => none
      | some (.error e) => some (.error e)
      | some (.ok x) =>
        if ¬x.ret.succeeded then some (.ok ⟨x.ret, x.h, log ++ x.log⟩)
        else execDirectLoop m rest x.ret (info || (ret₁ = .successWithInfo : Bool) ||
          (x.ret = .successWithInfo : Bool)) x.h (log ++ x.log) := by
  rw [execDirectLoop]
  simp only [hfin]
  exact if_neg hgo

/-- The loop over the statements of a text, by induction on them. -/
theorem execDirectLoop_reads {n : ℕ} (hpos : 1 ≤ n) (hlt : n < 2 ^ 64)
    (statements : List (StatementAnswer ρ V)) (ret : SqlReturn) (info : Bool)
    (h : OdbcHandleStmt ρ V) (log : List (ExecEvent V))
    (hn : h.paramDesc.apd.header.arraySize = n)
    (hone : (statements.countP fun s => s.prepared.paramCount ≠ 0) ≤ 1)
    (hidx : (statements.countP fun s => s.prepared.paramCount ≠ 0) ≠ 0 →
      h.paramDesc.paramsetIdx = 0) :
    (∃ k, ∀ m, k ≤ m → (execDirectLoop m statements ret info h log).isSome) ∧
    ∀ k y, execDirectLoop k statements ret info h log = some (.ok y) → y.ret.succeeded →
      setsRead y.log = setsRead log ++ setsOf n (statements.map fun s => s.prepared.paramCount) ∧
      runs y.log = runs log + runsOf n (statements.map fun s => s.prepared.paramCount) := by
  induction statements generalizing ret info h log with
  | nil =>
    refine ⟨⟨0, fun m _ => rfl⟩, fun k y hy _ => ?_⟩
    cases hy
    simp [setsOf, runsOf]
  | cons s rest ih =>
    by_cases hstop : s.prepared.error.isSome ∨ ¬(h.finalizeStmt s.prepared).1.succeeded
    · have hloop : ∀ m, execDirectLoop m (s :: rest) ret info h log = some (.ok
          ⟨(h.finalizeStmt s.prepared).1, (h.finalizeStmt s.prepared).2, log⟩) := by
        intro m
        rw [execDirectLoop]
        exact if_pos hstop
      refine ⟨⟨0, fun m _ => by rw [hloop]; rfl⟩, fun k y hy hs => ?_⟩
      rw [hloop] at hy
      cases hy
      rcases hstop with herr | hfail
      · obtain ⟨msg, hmsg⟩ := Option.isSome_iff_exists.1 herr
        simp [finalizeStmt, hmsg, setDiagnosticRecord, SqlReturn.succeeded] at hs
      · exact absurd hs hfail
    · have herr : s.prepared.error = none := by
        by_contra hne
        exact hstop (.inl (Option.isSome_iff_ne_none.2 hne))
      have hparam := finalizeStmt_paramDesc h herr
      generalize hfin : h.finalizeStmt s.prepared = fin at hparam hstop
      obtain ⟨ret₁, h₁⟩ := fin
      have hn₁ : h₁.paramDesc.apd.header.arraySize = n := by rw [hparam]; exact hn
      have hidx₁ : h₁.paramDesc.paramsetIdx = h.paramDesc.paramsetIdx := by rw [hparam]; rfl
      have hlen₁ : h₁.paramDesc.ipd.records.length = s.prepared.paramCount := by
        rw [hparam]
        exact length_resize _ _ _
      have hrec₁ : h₁.paramDesc.ipd.records = [] ↔ s.prepared.paramCount = 0 := by
        rw [← hlen₁, List.length_eq_zero_iff]
      simp only [List.countP_cons] at hone hidx
      obtain ⟨⟨K, y, hK⟩, hdone⟩ := batchExecuteStmt_reads s.exec (h := h₁) (hn₁ ▸ hpos) (hn₁ ▸ hlt)
        (fun hrec => by
          rw [hidx₁]
          refine hidx ?_
          simp [mt hrec₁.2 hrec])
      -- the rest of the text after a batch that succeeded
      have hrest : ∀ k z, h₁.batchExecuteStmt k s.exec = some (.ok z) → z.ret.succeeded →
          BatchDone h₁.paramDesc z ∧ z.h.paramDesc.apd.header.arraySize = n ∧
          (rest.countP fun s => s.prepared.paramCount ≠ 0) ≤ 1 ∧
          ((rest.countP fun s => s.prepared.paramCount ≠ 0) ≠ 0 →
            z.h.paramDesc.paramsetIdx = 0) := by
        intro k z hz hs
        have hd := hdone k z hz hs
        refine ⟨hd, by rw [hd.apd]; exact hn₁, by omega, fun hcount => ?_⟩
        have hzero : s.prepared.paramCount = 0 := by
          by_contra hne
          rw [if_pos (by simpa using hne)] at hone
          omega
        rw [hd.idx (hrec₁.2 hzero), hidx₁]
        exact hidx (by omega)
      have hunfold := fun m => execDirectLoop_cons m rest ret info log hfin hstop
      constructor
      · cases y with
        | error e => exact ⟨K, fun m hm => by simp [hunfold, hK m hm]⟩
        | ok z =>
          by_cases hs : z.ret.succeeded
          · obtain ⟨-, hnz, honez, hidxz⟩ := hrest K z (hK K (Nat.le_refl K)) hs
            obtain ⟨k, hk⟩ := (ih z.ret _ z.h (log ++ z.log) hnz honez hidxz).1
            refine ⟨max K k, fun m hm => ?_⟩
            simp only [hunfold, hK m (by omega), hs, not_true_eq_false, if_false]
            exact hk m (by omega)
          · exact ⟨K, fun m hm => by simp [hunfold, hK m hm, hs]⟩
      · intro k z hz hs
        rw [hunfold] at hz
        cases hbatch : h₁.batchExecuteStmt k s.exec with
        | none => simp [hbatch] at hz
        | some x =>
          cases x with
          | error e => simp [hbatch] at hz
          | ok x =>
            simp only [hbatch] at hz
            split at hz
            · next hfail =>
              cases hz
              exact absurd hs hfail
            · next hsucc =>
              obtain ⟨hd, hnz, honez, hidxz⟩ := hrest k x hbatch (not_not.1 hsucc)
              obtain ⟨hsets, hruns⟩ := (ih x.ret _ x.h (log ++ x.log) hnz honez hidxz).2 k z hz hs
              have hsets₁ := hd.sets
              have hruns₁ := hd.runs
              rw [hn₁, hlen₁] at hsets₁ hruns₁
              constructor
              · rw [hsets, setsRead_append, hsets₁, List.append_assoc]
                simp [setsOf]
              · rw [hruns, runs_append, hruns₁, Nat.add_assoc]
                simp [runsOf]

/-- `SQLExecDirect` from the first set on reads the sets of each of its statements. -/
theorem execDirect_reads {E : Engine ρ V} {h : OdbcHandleStmt ρ V}
    {statements : List (StatementAnswer ρ V)} (hidx : h.paramDesc.paramsetIdx = 0)
    (hone : (statements.countP fun s => s.prepared.paramCount ≠ 0) ≤ 1) :
    ExecutesSets E h (.execDirect (.ok statements))
      (statements.map fun s => s.prepared.paramCount) := by
  intro hpos hlt
  obtain ⟨⟨k, hk⟩, hdone⟩ := execDirectLoop_reads hpos hlt statements .success false
    h.convertHSTMT.prepareQuery [] rfl hone fun _ => hidx
  constructor
  · obtain ⟨x, hx⟩ := Option.isSome_iff_exists.1 (hk k (Nat.le_refl k))
    exact ⟨k, _, by simp only [perform, execDirectStmt, hx]; rfl⟩
  · intro k r hr hs
    obtain ⟨y, hy, hmap⟩ := Option.map_eq_some_iff.1 hr
    obtain ⟨z, rfl, rfl⟩ := Outcome.map_eq_ok.1 hmap
    simpa using hdone k z hy hs

/-- One call on a statement, as a step of it. -/
def Step (E : Engine ρ V) (h : OdbcHandleStmt ρ V) (c : Call ρ V)
    (h' : OdbcHandleStmt ρ V) : Prop :=
  ∃ k r, h.perform E k c = some (.ok r) ∧ r.h = h'

/-- In every sequence of calls on a statement whose executing calls each start at the first
set, each of these calls returns and, unless it fails, reads the sets `0` to `n - 1` in
order and runs the statement on each. -/
theorem executions_read_sets (E : Engine ρ V) (h : OdbcHandleStmt ρ V) (calls : List (Call ρ V))
    (hstart : Run.Along (Step E) StartsAtFirstSet h calls) :
    Run.Along (Step E) (ReadsItsSets E) h calls := by
  refine hstart.strengthen (fun _ => True) (fun _ _ _ _ _ _ => trivial) (fun h c _ hc => ?_) trivial
  cases c with
  | execute a => exact execute_reads hc
  | execDirect statements =>
    cases statements with
    | error msg => trivial
    | ok statements => exact execDirect_reads hc.1 hc.2
  | _ => trivial

/-- An INSERT with one parameter over three sets, all of which convert. -/
def insertThrice : List (Call ℕ ℕ) :=
  [.prepare ⟨none, 1, 1, true, true⟩, .setParamsetSize 3,
    .execute ⟨fun _ set => .value (7 + set), fun _ => queryResult 1 []⟩]

/-- All three sets are read and run. -/
theorem first_execution_reads_sets :
    Run.Along (Step byteEngine) (ReadsItsSets byteEngine) (alloc blank) insertThrice := by
  refine executions_read_sets byteEngine (alloc blank) _ ⟨trivial, ?_⟩
  rintro h₁ ⟨k, r, hr, rfl⟩
  obtain rfl := Except.ok.inj (Option.some.inj hr)
  refine ⟨trivial, ?_⟩
  rintro h₂ ⟨k, r, hr, rfl⟩
  obtain rfl := Except.ok.inj (Option.some.inj hr)
  exact ⟨rfl, fun _ _ => trivial⟩

/-- The INSERT over three sets, the second of which does not convert, and then again with all
of them right. -/
def insertAgain : List (Call ℕ ℕ) :=
  let second : ParamSource ℕ := fun _ set => if set = 1 then .failed .error else .value 7
  [.prepare ⟨none, 1, 1, true, true⟩, .setParamsetSize 3,
    .execute ⟨second, fun _ => queryResult 1 []⟩,
    .execute ⟨fun _ _ => .value 7, fun _ => queryResult 1 []⟩]

/-- The second execution after one that failed in the middle of its batch starts where that
one stopped, and does not read the first set. -/
theorem execution_after_failure :
    ¬Run.Along (Step byteEngine) (ReadsItsSets byteEngine) (alloc blank) insertAgain := by
  intro h
  have h₁ := h.2 _ ⟨0, _, rfl, rfl⟩
  have h₂ := h₁.2 _ ⟨0, _, rfl, rfl⟩
  have h₃ := h₂.2 _ ⟨2, _, rfl, rfl⟩
  have hsets := ((h₃.1 (by decide) (by decide)).2 2 _ rfl rfl).1
  exact absurd hsets (by decide)

end OdbcHandleStmt

end HaybarnOdbc
