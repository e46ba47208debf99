import HaybarnOdbc.Batch
import HaybarnOdbc.DataAtExec

/-!
# The dialogue for data at execution

After an execution that needs data, the application calls `SQLParamData`, answers each
`SQL_NEED_DATA` with the pieces of one value, and stops when `SQLParamData` returns anything
else. Which parameter is asked for depends on a cursor and on the indicators only. `Shape.wants`
and `Shape.put` are what the two calls do with these, and the calls refine them
(`sqlParamData_pos`, `sqlPutData_pos`).

The cursor moves when a value is complete, never over a parameter that has none to come, and
`GetNextParam` stops at such a parameter. Whether the dialogue asks for each parameter in turn
can thus be read off the indicators.
-/

namespace HaybarnOdbc

variable {ρ V : Type}

namespace Dialogue

/-! ## The cursor and the indicators -/

/-- What no call of the dialogue changes : whether the statement is prepared, the number of
parameters and of parameter sets, the C type and the indicator pointer of each parameter, and
its column size. -/
structure Shape where
  ready : Bool
  count : ℤ
  sets : ℕ
  params : List (ℤ × Addr)
  sizes : List ℕ

/-- The place in the dialogue and the indicators. -/
@[ext] structure Pos where
  cell : Cell
  indicators : Addr → ℤ

/-- The data comes at execution, by `SQL_DATA_AT_EXEC` or by one of `SQL_LEN_DATA_AT_EXEC`. -/
def AtExec (ind : ℤ) : Prop := ind = sqlDataAtExec ∨ ind ≤ sqlLenDataAtExec 0

instance (ind : ℤ) : Decidable (AtExec ind) := inferInstanceAs (Decidable (_ ∨ _))

/-- The cell behind one that is complete. -/
def Shape.next (S : Shape) (type : ℤ) (c : Cell) : Cell :=
  if isPiecewise type ∧ S.sets ≠ 1 then
    if S.sets ≤ c.set + 1 then ⟨c.param + 1, 0⟩ else ⟨c.param, c.set + 1⟩
  else ⟨c.param + 1, c.set⟩

/-- What `SQLParamData` returns. -/
def Shape.wants (S : Shape) (p : Pos) : Option SqlReturn :=
  if S.ready = false then some .error
  else if S.count ≤ p.cell.param then some .success
  else
    match S.params[p.cell.param]? with
    | none => none
    | some (_, ind) =>
      if ind = 0 then none
      else some (if p.indicators (ind + 8 * p.cell.set) = sqlDataAtExec then .needData
        else .success)

/-- What `SQLPutData` of a piece of a length does. -/
def Shape.put (S : Shape) (len : ℤ) (p : Pos) : Option Pos :=
  if S.ready = false ∨ S.count ≤ p.cell.param then some p
  else
    match S.params[p.cell.param]? with
    | none => none
    | some (type, ind) =>
      if isPiecewise type then
        match S.sizes[p.cell.param]? with
        | none => none
        | some size =>
          if ind = 0 then none
          else if S.sets = 1 then
            let old := if p.indicators ind = sqlDataAtExec then 0 else p.indicators ind
            let room := roomBehind size (sizeOfLen old)
            some ⟨if room ≤ sizeOfLen len then S.next type p.cell else p.cell,
              Function.update p.indicators ind (old + (min (sizeOfLen len) room : ℕ))⟩
          else some ⟨S.next type p.cell,
            Function.update p.indicators (ind + 8 * p.cell.set) (min (sizeOfLen len) size : ℕ)⟩
      else if len = sqlNullData then
        if ind = 0 then none
        else some ⟨S.next type p.cell, Function.update p.indicators ind sqlNullData⟩
      else some ⟨S.next type p.cell, p.indicators⟩

/-- The parameter that a piece goes to. -/
def Shape.receiver (S : Shape) (p : Pos) : Option Cell :=
  if S.count ≤ p.cell.param then none else some p.cell

/-- Pieces one after another, with their receivers. -/
def Shape.puts (S : Shape) : List ℤ → Pos → Option (List (Option Cell) × Pos)
  | [], p => some ([], p)
  | len :: lens, p =>
    match S.put len p with
    | none => none
    | some q => (S.puts lens q).map fun (receivers, r) => (S.receiver p :: receivers, r)

/-- The requests, each with the receivers of the pieces that answer it, and what the last
`SQLParamData` returns if it is not a request. -/
abbrev Requests := List (Cell × List (Option Cell)) × Option SqlReturn

/-- The dialogue, where each list of lengths answers one request. -/
def Shape.talk (S : Shape) : List (List ℤ) → Pos → Option Requests
  | turns, p =>
    match S.wants p with
    | none => none
    | some ret =>
      if ret = .needData then
        match turns with
        | [] => some ([(p.cell, [])], none)
        | lens :: turns =>
          match S.puts lens p with
          | none => none
          | some (receivers, q) =>
            (S.talk turns q).map fun (log, last) => ((p.cell, receivers) :: log, last)
      else some ([], some ret)

end Dialogue

open Dialogue

namespace Talk

/-- The part of the state that the dialogue does not change. -/
def shape (t : Talk ρ V) : Shape where
  ready := t.h.stmt.any fun stmt => stmt.error.isNone
  count := t.desc.apd.header.count
  sets := t.desc.apd.header.arraySize
  params := t.desc.apd.records.map fun r => (r.type, r.indicatorPtr)
  sizes := t.desc.ipd.records.map fun r => r.length

/-- Where the dialogue stands, and the indicators. -/
def pos (t : Talk ρ V) : Pos := ⟨t.here, t.mem.indicators⟩

section Refine

variable (t : Talk ρ V)

@[simp] theorem shape_setMem (m : Memory) : (t.setMem m).shape = t.shape := rfl

@[simp] theorem shape_moveTo (c : Cell) : (t.moveTo c).shape = t.shape := rfl

@[simp] theorem shape_setDataPtr (param : ℕ) (ptr : Addr) :
    (t.setDataPtr param ptr).shape = t.shape := by
  have hparams : (t.setDataPtr param ptr).desc.apd.records.map (fun r => (r.type, r.indicatorPtr))
      = t.desc.apd.records.map fun r => (r.type, r.indicatorPtr) := by
    refine List.ext_getElem? fun i => ?_
    simp only [setDataPtr, desc, List.getElem?_map, List.getElem?_modify]
    cases t.h.paramDesc.apd.records[i]? with
    | none => rfl
    | some r => by_cases hi : param = i <;> simp [hi]
  rw [shape, hparams]
  rfl

/-- `ConvertHSTMTPrepared` finds a prepared statement. -/
theorem convertHSTMTPrepared_ready :
    (t.shape.ready = true ∧ t.h.convertHSTMTPrepared = (.success, t.h.convertHSTMT)) ∨
    (t.shape.ready = false ∧ ∃ diag,
    t.h.convertHSTMTPrepared = (.error, { t.h with diag := diag })) := by
  rcases t.h.convertHSTMTPrepared_cases with ⟨stmt, hstmt, herr, hconv⟩ | ⟨diag, hconv⟩
  · exact .inl ⟨by simp [shape, hstmt, herr], hconv⟩
  · refine .inr ⟨?_, diag, hconv⟩
    unfold OdbcHandleStmt.convertHSTMTPrepared at hconv
    simp only [OdbcHandleStmt.convertHSTMT] at hconv
    cases hstmt : t.h.stmt with
    | none => simp [shape, hstmt]
    | some stmt =>
      cases herr : stmt.error with
      | none => simp [hstmt, herr] at hconv
      | some msg => simp [shape, hstmt, herr]

theorem getElem?_params : t.shape.params[t.pos.cell.param]? =
    (t.desc.apd.records[t.desc.curParamIdx]?).map fun r => (r.type, r.indicatorPtr) :=
  List.getElem?_map ..

theorem getElem?_sizes : t.shape.sizes[t.pos.cell.param]? =
    (t.desc.ipd.records[t.desc.curParamIdx]?).map fun r => r.length :=
  List.getElem?_map ..

/-- The next parameter is the one that the shape asks for. -/
theorem getNextParam_pos (hready : t.shape.ready = true) :
    t.getNextParam.map (fun r =>
    (if r.1 = .noData then .success else r.1, r.2.2.shape, r.2.2.pos)) =
      (t.shape.wants t.pos).map fun ret => (ret, t.shape, t.pos) := by
  rw [getNextParam, Shape.wants, getElem?_params]
  simp only [hready, Bool.true_eq_false, if_false]
  by_cases hcount : t.desc.apd.header.count ≤ t.desc.curParamIdx
  · rw [if_pos hcount, if_pos (show t.shape.count ≤ t.pos.cell.param from hcount)]
    rfl
  · rw [if_neg hcount, if_neg (show ¬t.shape.count ≤ t.pos.cell.param from hcount)]
    cases t.desc.apd.records[t.desc.curParamIdx]? with
    | none => rfl
    | some r =>
      by_cases hind : r.indicatorPtr = 0
      · simp only [Option.map_some, hind, if_true]
        rfl
      · simp only [Option.map_some, if_neg hind]
        have haddr : r.indicatorAddr t.desc.curParamsetIdx = r.indicatorPtr + 8 * t.pos.cell.set :=
          rfl
        simp only [haddr]
        split_ifs <;> first | rfl | contradiction

/-- `SQLParamData` returns what the cursor and the indicators say, and leaves them. -/
theorem sqlParamData_pos :
    t.sqlParamData.map (fun r => (r.1, r.2.2.shape, r.2.2.pos)) =
      (t.shape.wants t.pos).map fun ret => (ret, t.shape, t.pos) := by
  rcases t.convertHSTMTPrepared_ready with ⟨hready, hconv⟩ | ⟨hready, diag, hconv⟩
  · have hnext := ({ t with h := t.h.convertHSTMT } : Talk ρ V).getNextParam_pos hready
    rw [sqlParamData, hconv, Option.map_map]
    exact hnext
  · rw [sqlParamData, hconv, Shape.wants, if_pos hready]
    rfl

/-- A piece of a single set moves as the shape says. -/
theorem fillParamCharDataBuffer_pos (hsets : t.shape.sets = 1) (p : Piece) (r q : DescRecord)
    (hind : r.indicatorPtr ≠ 0) :
    (t.fillParamCharDataBuffer p r q).map (fun x => (x.1.shape, x.1.pos)) =
      let old := if t.mem.indicators r.indicatorPtr = sqlDataAtExec then 0
        else t.mem.indicators r.indicatorPtr
      let room := roomBehind q.length (sizeOfLen old)
      some (t.shape, ⟨if room ≤ sizeOfLen p.strLenOrInd then t.shape.next r.type t.here else t.here,
        Function.update t.mem.indicators r.indicatorPtr
          (old + (min (sizeOfLen p.strLenOrInd) room : ℕ))⟩) := by
  have haddr : r.indicatorAddr 0 = r.indicatorPtr := by simp [DescRecord.indicatorAddr]
  have hnext : t.shape.next r.type t.here = ⟨t.desc.curParamIdx + 1, t.here.set⟩ := by
    simp [Shape.next, hsets, here]
  rw [fillParamCharDataBuffer, if_neg hind]
  simp only [haddr, hnext, Option.map_some]
  by_cases hfirst : t.mem.indicators r.indicatorPtr = sqlDataAtExec
  · have hzero : sizeOfLen 0 = 0 := rfl
    simp only [hfirst, decide_true, if_true, hzero]
    split_ifs <;> simp [pos]
  · simp only [hfirst, decide_false, if_false, Bool.false_eq_true]
    split_ifs <;> simp [pos]

/-- So does one of several sets. -/
theorem fillCurParamCharSet_pos (hsets : t.shape.sets ≠ 1) (p : Piece) (r q : DescRecord)
    (htype : isPiecewise r.type = true) (hind : r.indicatorPtr ≠ 0) :
    (t.fillCurParamCharSet p r q).map (fun x => (x.1.shape, x.1.pos)) =
      some (t.shape, ⟨t.shape.next r.type t.here,
        Function.update t.mem.indicators (r.indicatorPtr + 8 * t.here.set)
          (min (sizeOfLen p.strLenOrInd) q.length : ℕ)⟩) := by
  have hnext : t.shape.next r.type t.here = if t.desc.apd.header.arraySize ≤ t.here.set + 1
      then ⟨t.here.param + 1, 0⟩ else ⟨t.here.param, t.here.set + 1⟩ :=
    if_pos ⟨htype, hsets⟩
  rw [fillCurParamCharSet, if_neg hind]
  simp only [hnext, Option.map_some, DescRecord.indicatorAddr]
  by_cases hfirst : t.mem.indicators (r.indicatorPtr + 8 * t.here.set) = sqlDataAtExec ∧
    t.mem.pool = []
  · simp only [hfirst]
    simp [pos]
    rfl
  · simp only [hfirst, decide_false, if_false, Bool.false_eq_true]
    simp [pos]
    rfl

/-- So does a value in one piece. -/
theorem putPointer_pos (p : Piece) (r : DescRecord) (htype : isPiecewise r.type = false) :
    (t.putPointer p r).map (fun x => (x.1.shape, x.1.pos)) =
      if p.strLenOrInd = sqlNullData then
        if r.indicatorPtr = 0 then none
        else some (t.shape, ⟨t.shape.next r.type t.here,
          Function.update t.mem.indicators r.indicatorPtr sqlNullData⟩)
      else some (t.shape, ⟨t.shape.next r.type t.here, t.mem.indicators⟩) := by
  have hnext : t.shape.next r.type t.here = ⟨t.desc.curParamIdx + 1, t.here.set⟩ := by
    simp [Shape.next, htype, here]
  rw [putPointer, hnext]
  split_ifs <;> simp [pos, DescRecord.indicatorAddr]

/-- So does whatever is put. -/
theorem putData_pos (hready : t.shape.ready = true) (p : Piece) :
    (t.putData p).map (fun r => (r.2.1.shape, r.2.1.pos)) =
      (t.shape.put p.strLenOrInd t.pos).map fun q => (t.shape, q) := by
  rw [putData, Shape.put, getElem?_params, getElem?_sizes]
  simp only [hready, Bool.true_eq_false, false_or]
  by_cases hcount : t.desc.apd.header.count ≤ t.desc.curParamIdx
  · rw [if_pos hcount, if_pos (show t.shape.count ≤ t.pos.cell.param from hcount)]
    rfl
  rw [if_neg hcount, if_neg (show ¬t.shape.count ≤ t.pos.cell.param from hcount)]
  cases t.desc.apd.records[t.desc.curParamIdx]? with
  | none => rfl
  | some r =>
    simp only [Option.map_some]
    cases htype : isPiecewise r.type with
    | true =>
      simp only [if_true]
      cases t.desc.ipd.records[t.desc.curParamIdx]? with
      | none => rfl
      | some q =>
        simp only [Option.map_some, Option.map_map]
        by_cases hind : r.indicatorPtr = 0
        · simp [hind, fillParamCharDataBuffer, fillCurParamCharSet]
        by_cases hsets : t.desc.apd.header.arraySize = 1
        · simp only [hind, hsets, if_true, if_false]
          rw [if_pos (show t.shape.sets = 1 from hsets)]
          exact t.fillParamCharDataBuffer_pos hsets p r q hind
        · simp only [hind, hsets, if_false]
          rw [if_neg (show ¬t.shape.sets = 1 from hsets)]
          exact t.fillCurParamCharSet_pos hsets p r q htype hind
    | false =>
      simp only [Bool.false_eq_true, if_false, Option.map_map]
      refine (t.putPointer_pos p r htype).trans ?_
      split_ifs <;> rfl

/-- `SQLPutData` moves the cursor and sets the indicators as `put` says. -/
theorem sqlPutData_pos (p : Piece) :
    (t.sqlPutData p).map (fun r => (r.2.1.shape, r.2.1.pos)) =
      (t.shape.put p.strLenOrInd t.pos).map fun q => (t.shape, q) := by
  rcases t.convertHSTMTPrepared_ready with ⟨hready, hconv⟩ | ⟨hready, diag, hconv⟩
  · have hput := ({ t with h := t.h.convertHSTMT } : Talk ρ V).putData_pos hready p
    rw [sqlPutData, hconv, Option.map_map]
    exact hput
  · rw [sqlPutData, hconv, Shape.put, if_pos (.inl hready)]
    rfl

/-- `SQLPutData` does what the shape does. -/
theorem sqlPutData_cases (p : Piece) :
    (t.sqlPutData p = none ∧ t.shape.put p.strLenOrInd t.pos = none) ∨
    ∃ r, t.sqlPutData p = some r ∧ r.2.1.shape = t.shape ∧
      t.shape.put p.strLenOrInd t.pos = some r.2.1.pos := by
  have hput := t.sqlPutData_pos p
  cases ht : t.sqlPutData p with
  | none =>
    rw [ht, Option.map_none, eq_comm, Option.map_eq_none_iff] at hput
    exact .inl ⟨rfl, hput⟩
  | some r =>
    rw [ht, Option.map_some, eq_comm, Option.map_eq_some_iff] at hput
    obtain ⟨q, hq, heq⟩ := hput
    obtain ⟨hshape, rfl⟩ := Prod.mk.inj heq
    exact .inr ⟨r, rfl, hshape.symm, hq⟩

/-- So does `SQLParamData`. -/
theorem sqlParamData_cases :
    (t.sqlParamData = none ∧ t.shape.wants t.pos = none) ∨
    ∃ r, t.sqlParamData = some r ∧ r.2.2.shape = t.shape ∧ r.2.2.pos = t.pos ∧
      t.shape.wants t.pos = some r.1 := by
  have hwants := t.sqlParamData_pos
  cases ht : t.sqlParamData with
  | none =>
    rw [ht, Option.map_none, eq_comm, Option.map_eq_none_iff] at hwants
    exact .inl ⟨rfl, hwants⟩
  | some r =>
    rw [ht, Option.map_some, eq_comm, Option.map_eq_some_iff] at hwants
    obtain ⟨ret, hret, heq⟩ := hwants
    simp only [Prod.mk.injEq] at heq
    obtain ⟨rfl, hshape, hpos⟩ := heq
    exact .inr ⟨r, rfl, hshape.symm, hpos.symm, hret⟩

end Refine

/-- The parameter that a piece goes to : the one that the cursor stands at. -/
def receiver (t : Talk ρ V) : Option Cell :=
  if t.desc.apd.header.count ≤ t.desc.curParamIdx then none else some t.here

/-- `SQLPutData` of one piece after another, with the receivers. -/
def puts : List Piece → Talk ρ V → Option (List (Option Cell) × Talk ρ V)
  | [], t => some ([], t)
  | p :: pieces, t =>
    match t.sqlPutData p with
    | none => none
    | some (_, t', _) => (puts pieces t').map fun (receivers, t'') => (t.receiver :: receivers, t'')

/-- The dialogue : `SQLParamData` until it does not ask for data, where each list of pieces
answers one request. -/
def dialogue : List (List Piece) → Talk ρ V → Option Requests
  | turns, t =>
    match t.sqlParamData with
    | none => none
    | some (ret, _, t) =>
      if ret = .needData then
        match turns with
        | [] => some ([(t.here, [])], none)
        | pieces :: turns =>
          match t.puts pieces with
          | none => none
          | some (receivers, t') =>
            (dialogue turns t').map fun (log, last) => ((t.here, receivers) :: log, last)
      else some ([], some ret)

/-- So do pieces one after another. -/
theorem puts_cases (pieces : List Piece) (t : Talk ρ V) :
    (t.puts pieces = none ∧ t.shape.puts (pieces.map Piece.strLenOrInd) t.pos = none) ∨
    ∃ r, t.puts pieces = some r ∧ r.2.shape = t.shape ∧
      t.shape.puts (pieces.map Piece.strLenOrInd) t.pos = some (r.1, r.2.pos) := by
  induction pieces generalizing t with
  | nil => exact .inr ⟨_, rfl, rfl, rfl⟩
  | cons p pieces ih =>
    rw [puts, List.map_cons, Shape.puts]
    rcases t.sqlPutData_cases p with ⟨ht, hput⟩ | ⟨r, ht, hshape, hput⟩
    · rw [ht, hput]
      exact .inl ⟨rfl, rfl⟩
    · rw [ht, hput, ← hshape]
      rcases ih r.2.1 with ⟨hrest, hputs⟩ | ⟨s, hrest, hshape', hputs⟩
      · refine .inl ⟨?_, ?_⟩ <;> simp [hrest, hputs]
      · refine .inr ⟨(t.receiver :: s.1, s.2), by simp [hrest], hshape', ?_⟩
        rw [hshape] at hputs ⊢
        simp only [hputs, Option.map_some]
        rfl

/-- The dialogue is the one of the cursor and the indicators. -/
theorem dialogue_pos (turns : List (List Piece)) (t : Talk ρ V) :
    t.dialogue turns = t.shape.talk (turns.map (·.map Piece.strLenOrInd)) t.pos := by
  induction turns generalizing t with
  | nil =>
    rw [dialogue, List.map_nil, Shape.talk]
    rcases t.sqlParamData_cases with ⟨ht, hwants⟩ | ⟨r, ht, hshape, hpos, hwants⟩
    · rw [ht, hwants]
    · rw [ht, hwants]
      simp only
      rw [← hpos]
      rfl
  | cons pieces turns ih =>
    rw [dialogue, List.map_cons, Shape.talk]
    rcases t.sqlParamData_cases with ⟨ht, hwants⟩ | ⟨r, ht, hshape, hpos, hwants⟩
    · rw [ht, hwants]
    · rw [ht, hwants, ← hpos, ← hshape]
      simp only
      rcases puts_cases pieces r.2.2 with ⟨hr, hputs⟩ | ⟨s, hr, hshape', hputs⟩
      · rw [hr, hputs]
      · rw [hr, hputs]
        simp only [ih, hshape']
        rfl

end Talk

end HaybarnOdbc
