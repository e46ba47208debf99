import Mathlib.Logic.Relation
import HaybarnOdbc.Batch
import HaybarnOdbc.ParamValues

/-!
# The values of a batch

A value that `SetValue` finds is put into `values` at its parameter, and `GetNextValue`
takes it from there. A parameter that fails puts nothing : with a status array the loop of
`GetParamValues` goes on, and takes what is in `values` from an earlier set or an earlier
execution.

`valueOf` says which value a parameter contributes, `readRecords_success` that the loop collects
these, and `ownValues_iff` when an execution gets the values of its own set.
-/

namespace HaybarnOdbc

variable {ρ V : Type}

namespace ParameterDescriptor

/-- The value that a record contributes to the execution of the current set, if the loop of
`GetParamValues` goes on after it : that of the set, or the one that is left in `values`. -/
def valueOf (p : ParameterDescriptor V) (source : ParamSource V) (recIdx : ℕ) : Option V :=
  match source recIdx p.paramsetIdx with
  | .value v => some v
  | .needData => none
  | .failed ret =>
    if ret ≠ .needData ∧ (ret = .success ∨ p.ipd.header.arrayStatusPtr ≠ 0) then p.values[recIdx]?
    else none

/-- A descriptor in the course of reading a set : the first `j` records are read, and the
values of the other ones are as they were. -/
structure ReadUpTo (p₀ p : ParameterDescriptor V) (j : ℕ) : Prop where
  set : p.paramsetIdx = p₀.paramsetIdx
  ipd : p.ipd = p₀.ipd
  values : ∀ r, j ≤ r → p.values[r]? = p₀.values[r]?
  length : j ≤ p.values.length

variable {p₀ p : ParameterDescriptor V} {j : ℕ}

/-- The value of a parameter is the one that was put there last. -/
theorem getElem?_putValue (h : j ≤ p.values.length) (v : V) :
    (p.putValue v j).values[j]? = some v := by
  unfold putValue
  by_cases hle : p.values.length ≤ j
  · have hj : j = p.values.length := le_antisymm h hle
    rw [if_pos hle, hj]
    exact List.getElem?_concat_length
  · rw [if_neg hle]
    exact List.getElem?_set_self (by omega)

/-- A value that is put leaves the values of the records after it. -/
theorem ReadUpTo.putValue (h : ReadUpTo p₀ p j) (v : V) : ReadUpTo p₀ (p.putValue v j) (j + 1) := by
  have hself := getElem?_putValue h.length v
  unfold ParameterDescriptor.putValue at hself ⊢
  have hlen := h.length
  by_cases hle : p.values.length ≤ j
  · rw [if_pos hle] at hself ⊢
    refine ⟨h.set, h.ipd, fun r hr => ?_, by simp; omega⟩
    rw [← h.values r (by omega), List.getElem?_eq_none (by simp; omega),
      List.getElem?_eq_none (by omega)]
  · rw [if_neg hle] at hself ⊢
    refine ⟨h.set, h.ipd, fun r hr => ?_, by simp; omega⟩
    rw [← h.values r (by omega)]
    exact List.getElem?_set_ne (by omega)

/-- One more parameter was read. -/
theorem ReadUpTo.next (h : ReadUpTo p₀ p j) (hj : j < p.values.length) : ReadUpTo p₀ p (j + 1) :=
  ⟨h.set, h.ipd, fun r hr => h.values r (by omega), hj⟩

end ParameterDescriptor

namespace OdbcHandleStmt

open ParameterDescriptor

/-- The loop of `GetParamValues` ends with a success exactly if each record contributes a
value, and these are what it collects. -/
theorem readRecords_success {source : ParamSource V} {p₀ : ParameterDescriptor V} (n : ℕ) :
    ∀ {j : ℕ} {vals vs : List V} {h : OdbcHandleStmt ρ V} {log : List (ExecEvent V)},
      ReadUpTo p₀ h.paramDesc j →
      ((∃ x, readRecords source (List.range' j n) vals h log = .ok (vs, x) ∧ x.ret = .success) ↔
        ∃ ws, vs = vals ++ ws ∧ ws.map some = (List.range' j n).map (p₀.valueOf source)) := by
  induction n with
  | zero =>
    intro j vals vs h log _
    simp only [List.range'_zero, readRecords, List.map_nil, List.map_eq_nil_iff]
    constructor
    · rintro ⟨x, hx, -⟩
      exact ⟨[], by simpa using (Prod.mk.inj (Except.ok.inj hx)).1.symm, rfl⟩
    · rintro ⟨ws, rfl, rfl⟩
      exact ⟨_, by rw [List.append_nil], rfl⟩
  | succ n ih =>
    intro j vals vs h log hread
    have hset : ∀ r, source r h.paramDesc.paramsetIdx = source r p₀.paramsetIdx := fun r => by
      rw [hread.set]
    -- a record that contributes `v`, with the rest of the loop behind it
    have hgo : ∀ {v : V} {h' : OdbcHandleStmt ρ V} {log' : List (ExecEvent V)},
        p₀.valueOf source j = some v → ReadUpTo p₀ h'.paramDesc (j + 1) →
        ((∃ x, readRecords source (List.range' (j + 1) n) (vals ++ [v]) h' log' = .ok (vs, x) ∧
          x.ret = .success) ↔
        ∃ ws, vs = vals ++ ws ∧
          ws.map some = (List.range' j (n + 1)).map (p₀.valueOf source)) := by
      intro v h' log' hv hread'
      rw [ih hread', List.range'_succ, List.map_cons, hv]
      constructor
      · rintro ⟨ws, rfl, hws⟩
        exact ⟨v :: ws, by rw [List.append_assoc]; rfl, by rw [List.map_cons, hws]⟩
      · rintro ⟨ws, rfl, hws⟩
        obtain ⟨w, ws, rfl, hw, hrest⟩ := List.map_eq_cons_iff.mp hws
        obtain rfl := Option.some.inj hw
        exact ⟨ws, by rw [List.append_assoc]; rfl, hrest⟩
    -- a record that ends the loop
    have hstop : p₀.valueOf source j = none → ¬∃ ws, vs = vals ++ ws ∧
        ws.map some = (List.range' j (n + 1)).map (p₀.valueOf source) := by
      rintro hv ⟨ws, -, hws⟩
      rw [List.range'_succ, List.map_cons, hv] at hws
      obtain ⟨w, ws, -, hw, -⟩ := List.map_eq_cons_iff.mp hws
      cases hw
    conv_lhs => rw [List.range'_succ, readRecords]
    unfold ParameterDescriptor.setValue
    cases hs : source j p₀.paramsetIdx with
    | value v =>
      have hv : p₀.valueOf source j = some v := by rw [ParameterDescriptor.valueOf, hs]
      simp only [hset, hs, reduceCtorEq, if_false, ne_eq, not_true_eq_false, false_and,
        getElem?_putValue hread.length v]
      exact hgo hv (hread.putValue v)
    | needData =>
      have hv : p₀.valueOf source j = none := by rw [ParameterDescriptor.valueOf, hs]
      simp only [hset, hs, if_true]
      refine iff_of_false ?_ (hstop hv)
      rintro ⟨x, hx, hret⟩
      obtain ⟨-, rfl⟩ := Prod.mk.inj (Except.ok.inj hx)
      cases hret
    | failed ret =>
      have hv : p₀.valueOf source j = if ret ≠ .needData ∧
          (ret = .success ∨ p₀.ipd.header.arrayStatusPtr ≠ 0) then p₀.values[j]? else none := by
        rw [ParameterDescriptor.valueOf, hs]
      simp only [hset, hs]
      by_cases hneed : ret = .needData
      · rw [if_pos hneed]
        refine iff_of_false ?_ (hstop (hv.trans (if_neg fun hz => hz.1 hneed)))
        rintro ⟨x, hx, hret⟩
        obtain ⟨-, rfl⟩ := Prod.mk.inj (Except.ok.inj hx)
        cases hret
      rw [if_neg hneed]
      by_cases hleft : ret ≠ .success ∧ ¬h.paramDesc.ipd.header.arrayStatusPtr ≠ 0
      · rw [if_pos hleft]
        refine iff_of_false ?_ (hstop (hv.trans (if_neg ?_)))
        · rintro ⟨x, hx, hret⟩
          obtain ⟨-, rfl⟩ := Prod.mk.inj (Except.ok.inj hx)
          cases hret
        · rintro ⟨-, hsuccess | hstatus⟩
          · exact hleft.1 hsuccess
          · exact hleft.2 (hread.ipd ▸ hstatus)
      rw [if_neg hleft]
      have hgoes : ret ≠ .needData ∧ (ret = .success ∨ p₀.ipd.header.arrayStatusPtr ≠ 0) := by
        rw [← hread.ipd]
        tauto
      rw [if_pos hgoes, ← hread.values j le_rfl] at hv
      cases hcached : h.paramDesc.values[j]? with
      | none =>
        refine iff_of_false ?_ (hstop (hv.trans hcached))
        rintro ⟨x, hx, -⟩
        cases hx
      | some v =>
        obtain ⟨hlt, -⟩ := List.getElem?_eq_some_iff.mp hcached
        refine hgo (hv.trans hcached) ?_
        by_cases hne : ret ≠ .success
        · rw [if_pos hne]
          exact hread.next hlt
        · rw [if_neg hne]
          exact hread.next hlt

/-- `GetParamValues` goes on to the execution with the values that the records contribute. -/
theorem getParamValues_collects {source : ParamSource V} {h : OdbcHandleStmt ρ V} {vs : List V} :
    (∃ y, h.getParamValues source = .ok (vs, y) ∧ ¬(y.ret = .needData ∨ y.ret = .error)) ↔
      vs.map some =
        (List.range h.paramDesc.ipd.records.length).map (h.paramDesc.valueOf source) := by
  unfold getParamValues
  by_cases hnil : h.paramDesc.ipd.records.isEmpty = true
  · rw [if_pos hnil, List.isEmpty_iff.mp hnil]
    simp only [List.length_nil, List.range_zero, List.map_nil, List.map_eq_nil_iff]
    constructor
    · rintro ⟨y, hy, -⟩
      exact (Prod.mk.inj (Except.ok.inj hy)).1.symm
    · rintro rfl
      exact ⟨_, rfl, by simp⟩
  rw [if_neg hnil]
  have hread : ReadUpTo h.paramDesc h.paramDesc 0 := ⟨rfl, rfl, fun _ _ => rfl, Nat.zero_le _⟩
  have hloop : (∃ x, readRecords source (List.range' 0 h.paramDesc.ipd.records.length) [] h
      [.readSet h.paramDesc.paramsetIdx] = .ok (vs, x) ∧ x.ret = .success) ↔ _ :=
    readRecords_success _ hread
  simp only [List.nil_append, exists_eq_left'] at hloop
  rw [List.range_eq_range', ← hloop]
  constructor
  · rintro ⟨y, hy, hret⟩
    obtain ⟨⟨values, x⟩, hx, hy⟩ := Outcome.bind_eq_ok.mp hy
    dsimp only at hy
    by_cases hsuccess : x.ret = .success
    · rw [if_neg (not_not.mpr hsuccess)] at hy
      obtain ⟨rfl, -⟩ := Prod.mk.inj (Except.ok.inj hy)
      exact ⟨x, hx, hsuccess⟩
    · rw [if_pos hsuccess] at hy
      obtain ⟨-, rfl⟩ := Prod.mk.inj (Except.ok.inj hy)
      exact absurd ((readRecords_cases hx).1.resolve_left hsuccess) hret
  · rintro ⟨x, hx, hsuccess⟩
    rw [hx]
    refine ⟨_, if_neg (not_not.mpr hsuccess), ?_⟩
    show ¬(setRet x.h.paramDesc = .needData ∨ setRet x.h.paramDesc = .error)
    rcases setRet_eq x.h.paramDesc with hr | hr
    · simp [hr]
    · simp [hr]

/-- Reading a set runs nothing. -/
theorem not_run_mem_getParamValues {source : ParamSource V} {h : OdbcHandleStmt ρ V} {vs : List V}
    {y : Executed ρ V} (hy : h.getParamValues source = .ok (vs, y)) (ws : List V) :
    .run ws ∉ y.log := by
  have hnone : ∀ {log : List (ExecEvent V)}, runs log = 0 → .run ws ∉ log := fun hruns hmem => by
    simpa using List.countP_eq_zero.mp hruns _ hmem
  unfold getParamValues at hy
  by_cases hnil : h.paramDesc.ipd.records.isEmpty = true
  · rw [if_pos hnil] at hy
    obtain ⟨-, rfl⟩ := Prod.mk.inj (Except.ok.inj hy)
    exact List.not_mem_nil
  rw [if_neg hnil] at hy
  obtain ⟨⟨values, x⟩, hx, hy⟩ := Outcome.bind_eq_ok.mp hy
  obtain ⟨-, -, -, hruns⟩ := readRecords_cases hx
  have hread : .run ws ∉ x.log := hnone hruns
  dsimp only at hy
  by_cases hsuccess : x.ret ≠ .success
  · rw [if_pos hsuccess] at hy
    obtain ⟨-, rfl⟩ := Prod.mk.inj (Except.ok.inj hy)
    exact hread
  rw [if_neg hsuccess] at hy
  obtain ⟨-, rfl⟩ := Prod.mk.inj (Except.ok.inj hy)
  show .run ws ∉ x.log ++ if _ then [.processed _] else []
  refine fun hmem => (List.mem_append.mp hmem).elim hread fun hmem => ?_
  split at hmem
  · cases List.mem_singleton.mp hmem
  · cases hmem

/-- What an execution logs before it reads its set. -/
def resetLog (h : OdbcHandleStmt ρ V) : List (ExecEvent V) :=
  if h.rowsFetchedPtr ≠ 0 then [.rowsFetchedReset] else []

theorem resetLogged_eq (h : OdbcHandleStmt ρ V) (y : Executed ρ V) :
    (if h.rowsFetchedPtr ≠ 0 then { y with log := .rowsFetchedReset :: y.log } else y) =
      ⟨y.ret, y.h, h.resetLog ++ y.log⟩ := by
  unfold resetLog
  split <;> rfl

/-- `SingleExecuteStmt` after `GetParamValues`. -/
theorem singleExecuteStmt_eq {source : ParamSource V} {h : OdbcHandleStmt ρ V} {vs : List V}
    {y : Executed ρ V} (result : QueryResult ρ)
    (hy : h.started.getParamValues source = .ok (vs, y)) :
    h.singleExecuteStmt source result =
      if y.ret = .needData ∨ y.ret = .error then .ok ⟨y.ret, y.h, h.resetLog ++ y.log⟩
      else if h.stmt.isNone then .error .nullStmt
      else
        match result.error with
        | some msg => .ok
          ⟨.error, (setDiagnosticRecord { y.h with res := some result } .error "SingleExecuteStmt"
            msg .stHY000).2, h.resetLog ++ y.log ++ [.run vs]⟩
        | none => .ok
          ⟨if y.ret = .stillExecuting then .stillExecuting else .success,
            { y.h with res := some result, opened := true },
            h.resetLog ++ y.log ++ [.run vs]⟩ := by
  have hstmt : y.h.stmt = h.stmt := by
    cases getParamValues_cases hy <;> rfl
  unfold singleExecuteStmt
  change h.started.getParamValues source >>= _ = _
  rw [hy]
  dsimp only [bind, Except.bind]
  rw [resetLogged_eq]
  dsimp only
  rw [hstmt]
  by_cases hstop : y.ret = .needData ∨ y.ret = .error
  · rw [if_pos hstop, if_pos hstop]
    rfl
  rw [if_neg hstop, if_neg hstop]
  cases h.stmt with
  | none => rfl
  | some stmt =>
    simp only [Option.isNone_some, Bool.false_eq_true, if_false]
    cases result.error with
    | some msg => rfl
    | none =>
      by_cases hagain : y.ret = .stillExecuting
      · simp only [if_pos hagain]
        rfl
      · simp only [if_neg hagain]
        rfl

/-- An execution runs the statement with the values that the records contribute, if they all
contribute one. -/
theorem run_mem_singleExecuteStmt {source : ParamSource V} {result : QueryResult ρ}
    {h : OdbcHandleStmt ρ V} {vs : List V} :
    (∃ x, h.singleExecuteStmt source result = .ok x ∧ .run vs ∈ x.log) ↔
      h.stmt.isSome ∧ vs.map some =
        (List.range h.paramDesc.ipd.records.length).map (h.paramDesc.valueOf source) := by
  have hcollect : (∃ y, h.started.getParamValues source = .ok (vs, y) ∧ _) ↔
      vs.map some = (List.range h.paramDesc.ipd.records.length).map (h.paramDesc.valueOf source) :=
    getParamValues_collects
  rw [← hcollect]
  have hreset : ∀ ws : List V, .run ws ∉ h.resetLog := fun ws => by
    unfold resetLog
    split <;> simp
  constructor
  · rintro ⟨x, hx, hmem⟩
    obtain ⟨⟨values, y⟩, hy, -⟩ := Outcome.bind_eq_ok.mp hx
    have hnot := not_run_mem_getParamValues hy vs
    rw [singleExecuteStmt_eq result hy] at hx
    by_cases hstop : y.ret = .needData ∨ y.ret = .error
    · rw [if_pos hstop] at hx
      obtain rfl := Except.ok.inj hx
      exact absurd hmem (by simp [hreset, hnot])
    rw [if_neg hstop] at hx
    cases hs : h.stmt with
    | none =>
      rw [hs] at hx
      cases hx
    | some stmt =>
      rw [hs] at hx
      have hlog : x.log = h.resetLog ++ y.log ++ [.run values] := by
        cases herr : result.error <;>
        · simp only [herr, Option.isNone_some, Bool.false_eq_true, if_false] at hx
          obtain rfl := Except.ok.inj hx
          rfl
      obtain rfl : vs = values := by simpa [hlog, hreset, hnot] using hmem
      exact ⟨rfl, y, hy, hstop⟩
  · rintro ⟨hs, y, hy, hgo⟩
    obtain ⟨stmt, hstmt⟩ := Option.isSome_iff_exists.mp hs
    rw [singleExecuteStmt_eq result hy, if_neg hgo, hstmt]
    cases result.error with
    | some msg => exact ⟨_, rfl, List.mem_append_right _ (List.mem_singleton_self _)⟩
    | none => exact ⟨_, rfl, List.mem_append_right _ (List.mem_singleton_self _)⟩

/-! ## Values of the own set -/

/-- The runs of an execution of `h` have the values that `SetValue` found in the set of the
execution, each at the place of its parameter. -/
def OwnValues (source : ParamSource V) (h : OdbcHandleStmt ρ V) (log : List (ExecEvent V)) : Prop :=
  ∀ vs, .run vs ∈ log → vs.map .value =
    (List.range h.paramDesc.ipd.records.length).map (source · h.paramDesc.paramsetIdx)

/-- A prepared statement before a set in which a parameter fails and, for each one that does,
there is a value of an earlier set to go on with. -/
structure TakesCached (source : ParamSource V) (h : OdbcHandleStmt ρ V) : Prop where
  prepared : h.stmt.isSome
  fails : ∃ r < h.paramDesc.ipd.records.length, ∃ ret,
    source r h.paramDesc.paramsetIdx = .failed ret
  goesOn : ∀ r < h.paramDesc.ipd.records.length, (h.paramDesc.valueOf source r).isSome

/-- A value that a record contributes is the one of the set, unless the record failed. -/
theorem source_of_valueOf {source : ParamSource V} {p : ParameterDescriptor V} {r : ℕ} {v : V}
    (h : p.valueOf source r = some v) :
    source r p.paramsetIdx = .value v ∨ ∃ ret, source r p.paramsetIdx = .failed ret := by
  unfold ParameterDescriptor.valueOf at h
  split at h
  · next w hs => exact .inl (Option.some.inj h ▸ hs)
  · cases h
  · next ret hs => exact .inr ⟨ret, hs⟩

/-- The elements of a list whose values are those of a function. -/
theorem getElem?_of_map_some {f : ℕ → Option V} {vs : List V} {k r : ℕ}
    (h : vs.map some = (List.range k).map f) (hr : r < k) :
    ∃ v, vs[r]? = some v ∧ f r = some v := by
  have hat := congrArg (·[r]?) h
  simp only [List.getElem?_map, List.getElem?_range hr, Option.map_some] at hat
  obtain ⟨v, hv, hf⟩ := Option.map_eq_some_iff.mp hat
  exact ⟨v, hv, hf.symm⟩

/-- An execution has the values of its own set, unless it takes a cached one. -/
theorem ownValues_iff {source : ParamSource V} {result : QueryResult ρ} {h : OdbcHandleStmt ρ V} :
    (∀ x, h.singleExecuteStmt source result = .ok x → OwnValues source h x.log) ↔
      ¬TakesCached source h := by
  constructor
  · rintro hown ⟨hstmt, ⟨r, hr, ret, hfail⟩, hgo⟩
    -- the values that the records contribute, the cached one of `r` among them
    obtain ⟨vs, hvs⟩ : ∃ vs : List V, vs.map some =
        (List.range h.paramDesc.ipd.records.length).map (h.paramDesc.valueOf source) :=
      ⟨(List.range _).pmap (fun r hr => (h.paramDesc.valueOf source r).get (hgo r hr))
        fun _ => List.mem_range.mp, by simp [List.map_pmap]⟩
    obtain ⟨x, hx, hmem⟩ : ∃ x, h.singleExecuteStmt source result = .ok x ∧ .run vs ∈ x.log :=
      run_mem_singleExecuteStmt.mpr ⟨hstmt, hvs⟩
    obtain ⟨v, hv, -⟩ := getElem?_of_map_some hvs hr
    have hat := congrArg (·[r]?) (hown x hx vs hmem)
    simp only [List.getElem?_map, List.getElem?_range hr, hv, hfail, Option.map_some] at hat
    cases hat
  · intro hnot x hx vs hmem
    obtain ⟨hstmt, hvs⟩ := run_mem_singleExecuteStmt.mp ⟨x, hx, hmem⟩
    refine List.ext_getElem? fun r => ?_
    by_cases hr : r < h.paramDesc.ipd.records.length
    · obtain ⟨v, hv, hcontrib⟩ := getElem?_of_map_some hvs hr
      simp only [List.getElem?_map, List.getElem?_range hr, hv, Option.map_some]
      rcases source_of_valueOf hcontrib with hown | ⟨ret, hfail⟩
      · rw [hown]
      · refine absurd ⟨hstmt, ⟨r, hr, ret, hfail⟩, fun r' hr' => ?_⟩ hnot
        obtain ⟨w, -, hw⟩ := getElem?_of_map_some hvs hr'
        exact Option.isSome_of_eq_some hw
    · have hlen : vs.length = h.paramDesc.ipd.records.length := by
        simpa using congrArg List.length hvs
      rw [List.getElem?_eq_none (by simp; omega), List.getElem?_eq_none (by simp; omega)]

/-! ## A batch -/

/-- A turn of the loop of `BatchExecuteStmt` that asks for another one. -/
def Turn (a : ExecAnswers ρ V) (b b' : Batch ρ V) : Prop :=
  batchBody a b = .ok (.stillExecuting, b')

/-- The loop of a batch reaches the turn. -/
abbrev ReachesTurn (a : ExecAnswers ρ V) (h : OdbcHandleStmt ρ V) (b : Batch ρ V) : Prop :=
  Relation.ReflTransGen (Turn a) ⟨h, 0, []⟩ b

/-- Each execution of a batch has the values of its own set. -/
def ExecutesOwnValues (a : ExecAnswers ρ V) (h : OdbcHandleStmt ρ V) : Prop :=
  ∀ b, ReachesTurn a h b → ∀ x, b.h.singleExecuteStmt a.source (a.results b.turn) = .ok x →
    OwnValues a.source b.h x.log

/-- A batch executes its statement with the values of the current set only, unless it comes to a
set in which a parameter fails and a cached value is there for each one that does. -/
theorem executesOwnValues_iff (a : ExecAnswers ρ V) (h : OdbcHandleStmt ρ V) :
    ExecutesOwnValues a h ↔ ∀ b, ReachesTurn a h b → ¬TakesCached a.source b.h :=
  forall₂_congr fun _ _ => ownValues_iff

/-- A statement with a parameter of the type `SQL_BIT`, which `SetValue` does not know, over two
sets with a status array. The first bit is a null. -/
def bitStatement : Talk ℕ EngineValue where
  h :=
    let h := ((blank : OdbcHandleStmt ℕ EngineValue).bindParameterStmt
      ⟨1, 1, -7, -7, 1, 0, 100, 1, 200⟩).2
    { h with
      stmt := some ⟨none, 1, 1, true, true⟩
      paramDesc.apd.header.arraySize := 2
      paramDesc.ipd.header.arrayStatusPtr := 300 }
  mem :=
    { indicators := fun a => if a = 200 then sqlNullData else 1
      app := fun _ => [1, 1]
      pool := []
      buffers := fun _ => none
      rowsProcessed := 0 }

/-- The second bit is executed as the null of the first set. -/
theorem null_of_earlier_set :
    ¬ExecutesOwnValues ⟨bitStatement.source, fun _ => queryResult 1 []⟩ bitStatement.h := by
  intro hown
  have hsecond := hown _ (.single (by rfl)) _ (by rfl) [.null] (List.mem_of_getElem? (i := 2) rfl)
  exact absurd hsecond nofun

end OdbcHandleStmt

end HaybarnOdbc
