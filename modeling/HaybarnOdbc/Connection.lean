import HaybarnOdbc.Lib.Run
import HaybarnOdbc.Api

/-!
# The connection

A connection keeps its statements in the order they were allocated (`vec_stmt_ref`).
`SQLEndTran` with `SQL_COMMIT` materializes the result set of the last one, because the
commit closes the result in the engine while the application can still fetch from it.

`DbcCall` is a call on the connection or on one of its statements, or the engine closing
the result of a statement (another query ran on the connection), and `OdbcHandleDbc.Step`
the step relation of the connection under them.
-/

namespace HaybarnOdbc

variable {ρ V : Type}

/-- `OdbcHandleDbc`, with the auto-commit flag of its engine connection. -/
structure OdbcHandleDbc (ρ V : Type) where
  vecStmtRef : List (OdbcHandleStmt ρ V)
  isAutoCommit : Bool

/-- The completion type of `SQLEndTran`; a rollback may fail in the engine. -/
inductive CompletionType
  | commit
  | rollback (failed : Bool)
  | other

/-- A call on the connection, or the engine closing the result of a statement. -/
inductive DbcCall (ρ V : Type)
  | allocStmt (junk : OdbcHandleStmt ρ V)
  | freeStmt (i : ℕ)
  | onStmt (i : ℕ) (c : Call ρ V)
  | closeResult (i : ℕ) (msg : String)
  | setAutoCommit (on : Bool)
  | endTran (t : CompletionType)

namespace OdbcHandleDbc

/-- A connection without statements. -/
def fresh : OdbcHandleDbc ρ V := ⟨[], true⟩

/-- `OdbcHandleDbc::MaterializeResult`, on the last statement only. -/
def materializeResult (n : ℕ) (d : OdbcHandleDbc ρ V) :
    Option (Except Fault (SqlReturn × OdbcHandleDbc ρ V)) :=
  match d.vecStmtRef.getLast? with
  | none => some (.ok (.success, d))
  | some h => (h.materializeResult n).map fun x => x.map fun p =>
      (p.1, { d with vecStmtRef := d.vecStmtRef.dropLast ++ [p.2] })

/-- `SQLEndTran`, with at most `n` turns of the loop of `Materialize`. The commit of the
engine has nothing left to close once the result is materialized. -/
def sqlEndTran (n : ℕ) (t : CompletionType) (d : OdbcHandleDbc ρ V) :
    Option (Except Fault (SqlReturn × OdbcHandleDbc ρ V)) :=
  match t with
  | .commit => (d.materializeResult n).map fun x => x.map fun p =>
      (if p.1 = .success then .success else .error, p.2)
  | .rollback failed => some (.ok (if failed then .error else .success, d))
  | .other => some (.ok (.error, d))

/-- The result of a statement after the engine closed it. -/
def closeResult (msg : String) (h : OdbcHandleStmt ρ V) : OdbcHandleStmt ρ V :=
  { h with res := h.res.map fun res => { res with pending := [], failure := some msg } }

/-- One call, with at most `n` turns of each of its loops. -/
def perform (E : Engine ρ V) (n : ℕ) (d : OdbcHandleDbc ρ V) :
    DbcCall ρ V → Option (Except Fault (SqlReturn × OdbcHandleDbc ρ V))
  | .allocStmt junk => some (.ok
      (.success, { d with vecStmtRef := d.vecStmtRef ++ [OdbcHandleStmt.alloc junk] }))
  | .freeStmt i => some (.ok (.success, { d with vecStmtRef := d.vecStmtRef.eraseIdx i }))
  | .onStmt i c =>
    match d.vecStmtRef[i]? with
    | none => some (.ok (.invalidHandle, d))
    | some h => (h.perform E n c).map fun x => x.map fun r =>
        (r.ret, { d with vecStmtRef := d.vecStmtRef.set i r.h })
  | .closeResult i msg => some (.ok
      (.success, { d with vecStmtRef := d.vecStmtRef.modify i (closeResult msg) }))
  | .setAutoCommit on => some (.ok (.success, { d with isAutoCommit := on }))
  | .endTran t => d.sqlEndTran n t

/-- A call returns and leaves the connection in the state `d'`. -/
def Step (E : Engine ρ V) (d : OdbcHandleDbc ρ V) (c : DbcCall ρ V) (d' : OdbcHandleDbc ρ V) :
    Prop :=
  ∃ n ret, d.perform E n c = some (.ok (ret, d'))

end OdbcHandleDbc

end HaybarnOdbc
