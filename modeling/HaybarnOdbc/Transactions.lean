import HaybarnOdbc.Types

/-!
# Transactions

How a connection of the engine keeps a transaction, and what the driver asks of it. The engine
begins a transaction for each statement while its connection commits by itself
(`BeginQueryInternal`, `EndQueryInternal`), and one that stays as soon as it does not
(`TransactionContext::SetAutoCommit`). However a transaction ends, the connection commits by
itself again (`ClearTransaction`).

The driver keeps a flag of its own, `autocommit`, which `SQLSetConnectAttr` sets with the one of
the engine and `SQLGetConnectAttr` returns. `SQLEndTran` asks the engine for its flag, and for
a `COMMIT` or a `ROLLBACK`.

A statement that fails can make the transaction invalid, so that nothing but its end is left to
do. Or the engine rolls it back at once : the `BEGIN` that the parser puts in front of a statement
that it splits asks for that (`auto_rollback`), and what it asks for stays with the connection
when the transaction has ended, until the next `BEGIN`.

A statement is what it does to the transaction (`Statement`), `ω` what it writes. An exception is
a text, `none` if there was none. Whether an error makes the transaction invalid is up to its type
and the invalidation policy of the transaction, which are not told apart. Errors that invalidate
the whole database are left out, and so is the one of a checkpoint behind a commit.
-/

namespace HaybarnOdbc.Transactions

variable {ω : Type}

/-! ## The transaction of a connection -/

/-- `MetaTransaction` : what was written in it, and whether an error made it invalid. -/
structure MetaTransaction (ω : Type) where
  written : List ω
  invalidated : Bool

/-- What the database answers to a commit, given what it has stored and what is to be stored :
the error of a commit that it refuses. Where nothing was written there is none. -/
structure Storage (ω : Type) where
  refusal : List ω → List ω → Option String
  refusal_nil : ∀ stored, refusal stored [] = none

/-- `TransactionContext`, with the writes of the connection that the database has stored. -/
structure TransactionContext (ω : Type) where
  autoCommit : Bool
  autoRollback : Bool
  currentTransaction : Option (MetaTransaction ω)
  stored : List ω

/-- The statements of SQL that begin and end a transaction. -/
inductive TransactionType
  | beginTransaction
  | commit
  | rollback
  deriving DecidableEq, Repr

/-- `TransactionInfo`. -/
structure TransactionInfo where
  type : TransactionType
  autoRollback : Bool

/-- A statement of SQL. Only the ones that the parser adds ask for `auto_rollback`. -/
def TransactionType.info (type : TransactionType) : TransactionInfo := ⟨type, false⟩

namespace TransactionContext

/-- `BeginTransaction`. -/
def beginTransaction (c : TransactionContext ω) : Option String × TransactionContext ω :=
  match c.currentTransaction with
  | some _ => (some "cannot start a transaction within a transaction", c)
  | none => (none, { c with currentTransaction := some ⟨[], false⟩ })

/-- `SetAutoCommit`. -/
def setAutoCommit (value : Bool) (c : TransactionContext ω) : TransactionContext ω :=
  let c := { c with autoCommit := value }
  if !value && c.currentTransaction.isNone then c.beginTransaction.2 else c

/-- `ClearTransaction`. -/
def clearTransaction (c : TransactionContext ω) : TransactionContext ω :=
  { c.setAutoCommit true with currentTransaction := none }

/-- `Commit`. -/
def commit (S : Storage ω) (c : TransactionContext ω) : Option String × TransactionContext ω :=
  match c.currentTransaction with
  | none => (some "failed to commit: no transaction active", c)
  | some t =>
    match S.refusal c.stored t.written with
    | some msg => (some ("Failed to commit: " ++ msg), c.clearTransaction)
    | none => (none, { c.clearTransaction with stored := c.stored ++ t.written })

/-- `Rollback`. -/
def rollback (c : TransactionContext ω) : Option String × TransactionContext ω :=
  match c.currentTransaction with
  | none => (some "failed to rollback: no transaction active", c)
  | some _ => (none, c.clearTransaction)

/-- A change of the transaction, if there is one. -/
def modify (f : MetaTransaction ω → MetaTransaction ω) (c : TransactionContext ω) :
    TransactionContext ω :=
  { c with currentTransaction := c.currentTransaction.map f }

/-- A statement writes. -/
def write (ws : List ω) (c : TransactionContext ω) : TransactionContext ω :=
  c.modify fun t => { t with written := t.written ++ ws }

/-- `ValidChecker::Invalidate`. -/
def invalidate (c : TransactionContext ω) : TransactionContext ω :=
  c.modify fun t => { t with invalidated := true }

/-- `ValidChecker::IsInvalidated`. -/
def isInvalidated (c : TransactionContext ω) : Bool := c.currentTransaction.any (·.invalidated)

/-- `PhysicalTransaction::GetDataInternal`. A commit of an invalid transaction is turned into a
rollback. -/
def getData (S : Storage ω) (info : TransactionInfo) (c : TransactionContext ω) :
    Option String × TransactionContext ω :=
  match if info.type = .commit ∧ c.isInvalidated = true then .rollback else info.type with
  | .beginTransaction =>
    if c.autoCommit then (none, { c.setAutoCommit false with autoRollback := info.autoRollback })
    else (some "cannot start a transaction within a transaction", c)
  | .commit =>
    if c.autoCommit then (some "cannot commit - no transaction is active", c) else c.commit S
  | .rollback =>
    if c.autoCommit then (some "cannot rollback - no transaction is active", c) else c.rollback

end TransactionContext

/-! ## Statements -/

/-- How the engine runs a statement : to its end, with what it wrote; with its result open, of
which more is read later; or until it raises an error, which may make the transaction invalid.
Only a `SELECT` leaves its result open, and it writes nothing. -/
inductive Work (ω : Type)
  | wrote (ws : List ω)
  | streams
  | raises (invalidates : Bool)

/-- A statement that the application has executed : of a transaction, or one that works on the
tables. -/
inductive Statement (ω : Type)
  | transaction (t : TransactionType)
  | work (w : Work ω)

/-- `requires_valid_transaction`. -/
def Statement.requiresValidTransaction : Statement ω → Bool
  | .transaction t => t = .beginTransaction
  | .work _ => true

/-- What is read of an open result. -/
inductive StreamAnswer
  | chunk
  | done
  | raises (invalidates : Bool)
  deriving DecidableEq, Repr

/-- `ClientContext`, with its active query and whether a result of it is open. -/
structure ClientContext (ω : Type) where
  transaction : TransactionContext ω
  activeQuery : Option Bool

namespace ClientContext

/-- `BeginQueryInternal`. There is an active query even where it fails. -/
def beginQueryInternal (c : ClientContext ω) : Option String × ClientContext ω :=
  if c.transaction.autoCommit then
    (c.transaction.beginTransaction.1, ⟨c.transaction.beginTransaction.2, some false⟩)
  else if c.transaction.currentTransaction.isNone then
    (some "SetActiveQuery called without active transaction", ⟨c.transaction, some false⟩)
  else (none, ⟨c.transaction, some false⟩)

/-- `EndQueryInternal`. -/
def endQueryInternal (S : Storage ω) (success invalidateTransaction : Bool) (c : ClientContext ω) :
    Option String × ClientContext ω :=
  if c.transaction.currentTransaction.isNone then (none, ⟨c.transaction, none⟩)
  else if c.transaction.autoCommit then
    if success then ((c.transaction.commit S).1, ⟨(c.transaction.commit S).2, none⟩)
    else (c.transaction.rollback.1, ⟨c.transaction.rollback.2, none⟩)
  else if invalidateTransaction then
    if c.transaction.autoRollback then (c.transaction.rollback.1, ⟨c.transaction.rollback.2, none⟩)
    else (none, ⟨c.transaction.invalidate, none⟩)
  else (none, ⟨c.transaction, none⟩)

/-- `InitialCleanup`. -/
def initialCleanup (S : Storage ω) (c : ClientContext ω) : ClientContext ω :=
  if c.activeQuery.isSome then (c.endQueryInternal S false false).2 else c

/-- The end of a statement that raised `msg`. -/
def failed (S : Storage ω) (msg : String) (invalidates : Bool) (c : ClientContext ω) :
    Option String × ClientContext ω :=
  (some msg, (c.endQueryInternal S false invalidates).2)

/-- A statement that has begun is run. -/
def runStatement (S : Storage ω) (s : Statement ω) (c : ClientContext ω) :
    Option String × ClientContext ω :=
  -- `CheckIfPreparedStatementIsExecutable`
  if c.transaction.isInvalidated && s.requiresValidTransaction then
    c.failed S "Current transaction is aborted (please ROLLBACK)" true
  else
    match s with
    | .work (.wrote ws) =>
      endQueryInternal S true false { c with transaction := c.transaction.write ws }
    | .work .streams => (none, { c with activeQuery := some true })
    | .work (.raises invalidates) => c.failed S "the statement failed" invalidates
    | .transaction t =>
      match c.transaction.getData S t.info with
      | (some msg, transaction) => failed S msg true { c with transaction := transaction }
      | (none, transaction) => endQueryInternal S true false { c with transaction := transaction }

/-- `PreparedStatement::Execute`. -/
def query (S : Storage ω) (s : Statement ω) (c : ClientContext ω) :
    Option String × ClientContext ω :=
  match (c.initialCleanup S).beginQueryInternal with
  | (some msg, c) => (some msg, c)
  | (none, c) => c.runStatement S s

/-- `Connection::Query` of one statement, which rolls back what is left behind an error. -/
def connectionQuery (S : Storage ω) (s : Statement ω) (c : ClientContext ω) :
    Option String × ClientContext ω :=
  match c.query S s with
  | (some msg, c) =>
    if c.transaction.currentTransaction.isSome && c.transaction.autoRollback then
      (some msg, { c with transaction := c.transaction.rollback.2 })
    else (some msg, c)
  | (none, c) => (none, c)

/-- `ClientContext::Prepare`, where `raises` is whether planning the statement raises an error, and
whether that makes the transaction invalid. -/
def prepare (S : Storage ω) (raises : Option Bool) (c : ClientContext ω) :
    Option String × ClientContext ω :=
  let c := c.initialCleanup S
  -- `RunFunctionInTransactionInternal`
  if c.transaction.autoCommit && c.transaction.currentTransaction.isNone then
    let begun := c.transaction.beginTransaction.2
    match raises with
    | some _ => (some "the statement was not prepared", { c with transaction := begun.rollback.2 })
    | none => ((begun.commit S).1, { c with transaction := (begun.commit S).2 })
  else
    match raises with
    | some true =>
      (some "the statement was not prepared", { c with transaction := c.transaction.invalidate })
    | some false => (some "the statement was not prepared", c)
    | none => (none, c)

/-- More is read of the open result. One that another query closed is not read any more. -/
def fetch (S : Storage ω) (a : StreamAnswer) (c : ClientContext ω) : ClientContext ω :=
  if c.activeQuery = some true then
    match a with
    | .chunk => c
    | .done => (c.endQueryInternal S true false).2
    | .raises invalidates => (c.endQueryInternal S false invalidates).2
  else c

end ClientContext

/-! ## The driver -/

/-- `OdbcHandleDbc` of an open connection. -/
structure OpenDbc (ω : Type) where
  autocommit : Bool
  sqlAttrMetadataId : ℕ
  conn : ClientContext ω

/-- `SQL_ATTR_METADATA_ID`. -/
def sqlAttrMetadataId : ℤ := 10014

/-- What a commit finds of the last statement of the connection : no result that is to be
materialized, one that is open, with the error behind its last row if there is one and whether it
makes the transaction invalid, or one that another query closed. -/
inductive LastResult
  | nothing
  | opened (raises : Option Bool)
  | closed
  deriving DecidableEq, Repr

/-- The return code with the diagnostic record that is posted, if there is one. -/
structure Reply where
  ret : SqlReturn
  posted : Option (String × String × String) := none
  deriving DecidableEq, Repr

namespace OpenDbc

/-- A connection that was opened, `SetConnection`. -/
def connected (autocommit : Bool) (stored : List ω) : OpenDbc ω where
  autocommit := autocommit
  sqlAttrMetadataId := 0
  conn := ⟨(⟨true, false, none, stored⟩ : TransactionContext ω).setAutoCommit autocommit, none⟩

/-- Set the flag of the driver and the one of the engine. -/
def commitsItself (value : Bool) (d : OpenDbc ω) : OpenDbc ω :=
  { d with
    autocommit := value
    conn := { d.conn with transaction := d.conn.transaction.setAutoCommit value } }

/-- `SQLSetConnectAttr` with `SQL_ATTR_AUTOCOMMIT`. The case of `SQL_ATTR_METADATA_ID` is inside
this one. -/
def setAutocommit (value : ℤ) (d : OpenDbc ω) : OpenDbc ω :=
  if value = 1 then d.commitsItself true
  else if value = 0 then d.commitsItself false
  else if value = Transactions.sqlAttrMetadataId then { d with sqlAttrMetadataId := 10014 }
  else d

/-- `OdbcHandleDbc::MaterializeResult`. -/
def materializeResult (S : Storage ω) (last : LastResult) (d : OpenDbc ω) :
    SqlReturn × OpenDbc ω :=
  match last with
  | .nothing => (.success, d)
  | .closed => (.error, d)
  | .opened none => (.success, { d with conn := d.conn.fetch S .done })
  | .opened (some invalidates) => (.error, { d with conn := d.conn.fetch S (.raises invalidates) })

/-- `SQLEndTran` on the connection. The exception of a commit is not caught. -/
def sqlEndTran (S : Storage ω) (completionType : ℤ) (last : LastResult) (d : OpenDbc ω) :
    Except String Reply × OpenDbc ω :=
  if completionType = 0 then
    match d.materializeResult S last with
    | (.success, d) =>
      if d.conn.transaction.autoCommit then (.ok ⟨.success, none⟩, d)
      else
        match d.conn.connectionQuery S (.transaction .commit) with
        | (none, c) => (.ok ⟨.success, none⟩, { d with conn := c })
        | (some msg, c) => (.error msg, { d with conn := c })
    | (_, d) => (.ok ⟨.error, none⟩, d)
  else if completionType = 1 then
    match d.conn.connectionQuery S (.transaction .rollback) with
    | (none, c) => (.ok ⟨.success, none⟩, { d with conn := c })
    | (some msg, c) => (.ok ⟨.error, some ("SQLEndTran", msg, "HY115")⟩, { d with conn := c })
  else (.ok ⟨.error, some ("SQLEndTran", "Invalid completion type.", "HY012")⟩, d)

end OpenDbc

/-- What is asked of an open connection : by the application, or of the engine by the calls on a
statement. -/
inductive Call (ω : Type)
  | setAutocommit (value : ℤ)
  | endTran (completionType : ℤ) (last : LastResult)
  | prepare (raises : Option Bool)
  | execute (s : Statement ω)
  | fetch (a : StreamAnswer)

namespace OpenDbc

/-- The error of a statement that is executed. -/
def executeError (S : Storage ω) (s : Statement ω) (d : OpenDbc ω) : Option String :=
  (d.conn.query S s).1

/-- A call on the opened connection, up to its reply. -/
def step (S : Storage ω) (d : OpenDbc ω) : Call ω → OpenDbc ω
  | .setAutocommit value => d.setAutocommit value
  | .endTran completionType last => (d.sqlEndTran S completionType last).2
  | .prepare raises => { d with conn := (d.conn.prepare S raises).2 }
  | .execute s => { d with conn := (d.conn.query S s).2 }
  | .fetch a => { d with conn := d.conn.fetch S a }

end OpenDbc

end HaybarnOdbc.Transactions
