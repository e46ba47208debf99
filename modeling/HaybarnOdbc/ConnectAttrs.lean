import HaybarnOdbc.Lib.LastSet
import HaybarnOdbc.ManualCommit

/-!
# The attributes of a connection

`SQLSetConnectAttr` and `SQLGetConnectAttr`, on a connection handle that is opened and closed.
Most attributes are accepted and not stored. The two that are stored outlive the connection, and
a new one takes the auto-commit mode of the handle.

The auto-commit mode is kept twice : the engine leaves the mode whenever a transaction ends, and
`BEGIN` of SQL changes it too, which the attribute does not follow.
`connect_attributes_lawful_iff` says in which runs every attribute has what it was set to last, and
the one for the auto-commit mode is the mode of the engine.
-/

namespace HaybarnOdbc.Transactions

variable {ω : Type}

/-- The attributes that `SetConnectAttrInternal` and `GetConnectAttrInternal` tell apart. -/
inductive ConnAttr
  | accessMode
  | asyncDbcEvent
  | asyncDbcFunctionsEnable
  | asyncDbcPcallback
  | asyncDbcPcontext
  | asyncEnable
  | autocommit
  | autoIpd
  | connectionDead
  | connectionTimeout
  | currentCatalog
  | dbcInfoToken
  | enlistInDtc
  | loginTimeout
  | metadataId
  | odbcCursors
  | packetSize
  | queryTimeout
  | quietMode
  | trace
  | tracefile
  | translateLib
  | translateOption
  | txnIsolation
  | vendorMsjet
  | other (n : ℤ)
  deriving DecidableEq, Repr

/-- `OdbcHandleDbc`. What it keeps of its last connection when it is not open is not used. -/
structure DbcHandle (ω : Type) where
  opened : Bool
  dbc : OpenDbc ω
  sqlAttrAccessMode : ℤ
  sqlAttrCurrentCatalog : String

/-- What `SQLGetConnectAttr` writes. -/
inductive AttrValue
  | number (value : ℤ)
  | text (value : String)
  deriving DecidableEq, Repr

namespace DbcHandle

/-- A handle that was just allocated, for a database with something stored. -/
def fresh (stored : List ω) : DbcHandle ω where
  opened := false
  dbc := .connected true stored
  sqlAttrAccessMode := 0
  sqlAttrCurrentCatalog := ""

/-- The check of `ConvertConnection`. -/
def notConnected : Reply := ⟨.error, some ("dbc", "No database connection found", "08003")⟩

/-- What `SetConnectAttrInternal` posts. -/
def setError (msg state : String) : Reply := ⟨.error, some ("SQLSetConnectAttr", msg, state)⟩

/-- `SetDiagnosticRecord` of a connection attribute whose value was changed to this one. -/
def optionChanged (n : ℤ) : Reply :=
  ⟨.successWithInfo, some ("SQLSetConnectAttr", "Option value changed:" ++ toString n, "01S02")⟩

/-- `SQLSetConnectAttr` with `SQL_ATTR_ACCESS_MODE`. -/
def setAccessMode (value : ℤ) (h : DbcHandle ω) : Reply × DbcHandle ω :=
  let mode := value % 2 ^ 32
  if mode = 0 then (⟨.success, none⟩, { h with sqlAttrAccessMode := 0 })
  else if mode = 1 then (⟨.success, none⟩, { h with sqlAttrAccessMode := 1 })
  else (setError "Invalid access mode." "HY024", h)

/-- `SetConnectAttrInternal`. -/
def setConnectAttr (attr : ConnAttr) (value : ℤ) (h : DbcHandle ω) : Reply × DbcHandle ω :=
  match attr with
  | .loginTimeout | .odbcCursors | .packetSize | .vendorMsjet => (⟨.success, none⟩, h)
  | attr =>
    if !h.opened then (notConnected, h)
    else
      match attr with
      | .autocommit => (⟨.success, none⟩, { h with dbc := h.dbc.setAutocommit value })
      | .accessMode => h.setAccessMode value
      | .asyncDbcEvent | .asyncDbcFunctionsEnable | .asyncDbcPcallback | .asyncDbcPcontext
      | .asyncEnable => (setError "DuckDB does not support asynchronous events." "HY024", h)
      | .autoIpd | .connectionDead => (setError "Read-only attribute." "HY092", h)
      | .currentCatalog =>
        (setError "Connection already established, the database name could not be set." "01S00", h)
      | .queryTimeout => (optionChanged 0, h)
      | .other n => (optionChanged n, h)
      | _ => (⟨.success, none⟩, h)

/-- `GetConnectAttrInternal` behind the check of the connection. -/
def attrValue (attr : ConnAttr) (h : DbcHandle ω) : Reply × Option AttrValue :=
  match attr with
  | .autocommit => (⟨.success, none⟩, some (.number (if h.dbc.autocommit then 1 else 0)))
  | .accessMode => (⟨.success, none⟩, some (.number h.sqlAttrAccessMode))
  | .currentCatalog => (⟨.success, none⟩, some (.text h.sqlAttrCurrentCatalog))
  | .queryTimeout => (⟨.success, none⟩, some (.number 0))
  | .txnIsolation => (⟨.success, none⟩, some (.number 8))
  | .vendorMsjet | .other _ =>
    (⟨.error, some ("SQLGetConnectAttr", "Attribute not supported.", "HY092")⟩, none)
  | _ => (⟨.noData, none⟩, none)

/-- `SQLGetConnectAttr`. -/
def getConnectAttr (attr : ConnAttr) (h : DbcHandle ω) : Reply × Option AttrValue :=
  if h.opened then h.attrValue attr else (notConnected, none)

/-- `SQLConnect` that succeeds, `Connect::SetConnection`. -/
def connect (h : DbcHandle ω) : DbcHandle ω :=
  if h.opened then h
  else
    { h with
      opened := true
      dbc := { OpenDbc.connected h.dbc.autocommit h.dbc.conn.transaction.stored with
        sqlAttrMetadataId := h.dbc.sqlAttrMetadataId } }

/-- `SQLDisconnect`. -/
def disconnect (h : DbcHandle ω) : DbcHandle ω := { h with opened := false }

end DbcHandle

/-- A call on a connection handle. -/
inductive HandleCall (ω : Type)
  | setAttr (attr : ConnAttr) (value : ℤ)
  | connect
  | disconnect
  | endTran (completionType : ℤ) (last : LastResult)
  | prepare (raises : Option Bool)
  | execute (s : Statement ω)
  | fetch (a : StreamAnswer)

namespace HandleCall

/-- What it asks of an open connection. -/
def asks : HandleCall ω → Option (Call ω)
  | .endTran completionType last => some (.endTran completionType last)
  | .prepare raises => some (.prepare raises)
  | .execute s => some (.execute s)
  | .fetch a => some (.fetch a)
  | _ => none

end HandleCall

namespace DbcHandle

/-- A call on the connection handle, up to its reply. Only an opened one passes it on to the
engine. -/
def step (S : Storage ω) (h : DbcHandle ω) (c : HandleCall ω) : DbcHandle ω :=
  match c with
  | .setAttr attr value => (h.setConnectAttr attr value).2
  | .connect => h.connect
  | .disconnect => h.disconnect
  | c => c.asks.elim h fun call => if h.opened then { h with dbc := h.dbc.step S call } else h

end DbcHandle

/-! ## The mode of the engine -/

namespace TransactionContext

variable {S : Storage ω}

section AutoRollback

variable (c : TransactionContext ω)

@[simp] theorem autoRollback_beginTransaction :
    c.beginTransaction.2.autoRollback = c.autoRollback := by
  unfold beginTransaction
  split <;> rfl

@[simp] theorem autoRollback_setAutoCommit (value : Bool) :
    (c.setAutoCommit value).autoRollback = c.autoRollback := by
  unfold setAutoCommit
  dsimp only
  split <;> simp

@[simp] theorem autoRollback_clearTransaction : c.clearTransaction.autoRollback = c.autoRollback :=
  c.autoRollback_setAutoCommit true

@[simp] theorem autoRollback_commit : (c.commit S).2.autoRollback = c.autoRollback := by
  unfold commit
  split
  · rfl
  · split <;> simp

@[simp] theorem autoRollback_rollback : c.rollback.2.autoRollback = c.autoRollback := by
  unfold rollback
  split <;> simp

/-- A `BEGIN` of SQL turns it off. -/
theorem autoRollback_getData (type : TransactionType) (h : c.autoRollback = false) :
    (c.getData S type.info).2.autoRollback = false := by
  unfold getData TransactionType.info
  split
  · split
    · rfl
    · exact h
  · split
    · exact h
    · rw [autoRollback_commit, h]
  · split
    · exact h
    · rw [autoRollback_rollback, h]

end AutoRollback

/-- A connection that does not commit by itself is in a transaction, which a statement that fails
does not end. -/
structure Settled (c : TransactionContext ω) : Prop where
  active : c.Active
  stays : c.autoRollback = false

variable {c : TransactionContext ω}

/-- In auto-commit mode nothing has to be active. -/
theorem active_of_autoCommit (h : c.autoCommit = true) : c.Active := fun hauto => by
  simp [h] at hauto

/-- A connection that is told not to commit by itself is in a transaction. -/
theorem active_setAutoCommit (c : TransactionContext ω) (value : Bool) :
    (c.setAutoCommit value).Active := by
  cases value with
  | true => exact active_of_autoCommit (c.autoCommit_setAutoCommit true)
  | false =>
    intro _
    cases ht : c.currentTransaction <;> simp [setAutoCommit, beginTransaction, ht]

namespace Settled

/-- Changing the mode keeps it. -/
theorem setAutoCommit (h : c.Settled) (value : Bool) : (c.setAutoCommit value).Settled :=
  ⟨c.active_setAutoCommit value, by rw [autoRollback_setAutoCommit, h.stays]⟩

/-- A change of the transaction. -/
theorem modify (h : c.Settled) (f : MetaTransaction ω → MetaTransaction ω) : (c.modify f).Settled :=
  ⟨fun hauto => by simpa [TransactionContext.modify] using h.active hauto, h.stays⟩

/-- A transaction that is begun keeps it. -/
theorem beginTransaction (h : c.Settled) (hauto : c.autoCommit = true) :
    c.beginTransaction.2.Settled :=
  ⟨active_of_autoCommit (by simpa using hauto), by rw [autoRollback_beginTransaction, h.stays]⟩

/-- A commit keeps it. -/
theorem commit (h : c.Settled) {t : MetaTransaction ω} (ht : c.currentTransaction = some t) :
    (c.commit S).2.Settled :=
  ⟨active_of_autoCommit (c.commit_ends ht).1, by rw [autoRollback_commit, h.stays]⟩

/-- A rollback keeps it. -/
theorem rollback (h : c.Settled) {t : MetaTransaction ω} (ht : c.currentTransaction = some t) :
    c.rollback.2.Settled :=
  ⟨active_of_autoCommit (c.rollback_ends ht).2.1, by rw [autoRollback_rollback, h.stays]⟩

/-- A statement of a transaction keeps it. -/
theorem getData (h : c.Settled) {t : MetaTransaction ω} (ht : c.currentTransaction = some t)
    (type : TransactionType) : (c.getData S type.info).2.Settled := by
  refine ⟨?_, c.autoRollback_getData type h.stays⟩
  unfold TransactionContext.getData
  split
  · split
    · exact c.active_setAutoCommit false
    · exact h.active
  · split
    · exact h.active
    · exact (h.commit ht).active
  · split
    · exact h.active
    · exact (h.rollback ht).active

end Settled

/-- The connection of the engine that `SQLConnect` makes. -/
theorem settled_fresh {stored : List ω} : Settled ⟨true, false, none, stored⟩ :=
  ⟨active_of_autoCommit rfl, rfl⟩

end TransactionContext

/-- The mode behind a query with or without an error. -/
def Statement.modeAfter (autoCommit : Bool) (error : Option String) : Statement ω → Bool
  | .work _ => autoCommit
  | .transaction .beginTransaction => autoCommit && error.isSome
  | .transaction _ => true

/-- What a statement that begins or ends a transaction makes of the mode. -/
theorem TransactionContext.autoCommit_getData {S : Storage ω} {c : TransactionContext ω}
    {t : MetaTransaction ω} (ht : c.currentTransaction = some t) (type : TransactionType) :
    (c.getData S type.info).2.autoCommit =
      (Statement.transaction (ω := ω) type).modeAfter c.autoCommit (c.getData S type.info).1 := by
  cases hauto : c.autoCommit with
  | true =>
    have hinvalid : c.isInvalidated = t.invalidated := by simp [isInvalidated, ht]
    cases type with
    | beginTransaction => simp [getData, TransactionType.info, Statement.modeAfter, hauto]
    | commit =>
      cases hi : t.invalidated <;>
        simp [getData, TransactionType.info, Statement.modeAfter, hauto, hinvalid, hi]
    | rollback => simp [getData, TransactionType.info, Statement.modeAfter, hauto]
  | false =>
    cases type with
    | beginTransaction => simp [getData, TransactionType.info, Statement.modeAfter, hauto]
    | commit =>
      cases hi : c.isInvalidated with
      | false =>
        simpa [getData, TransactionType.info, Statement.modeAfter, hauto, hi] using
          (c.commit_ends ht).1
      | true =>
        simpa [getData, TransactionType.info, Statement.modeAfter, hauto, hi] using
          (c.rollback_ends ht).2.1
    | rollback =>
      simpa [getData, TransactionType.info, Statement.modeAfter, hauto] using
        (c.rollback_ends ht).2.1

namespace ClientContext

variable {S : Storage ω} {c : ClientContext ω}

/-- The end of a query leaves a connection in its mode, and in its transaction unless it commits by
itself. -/
theorem settled_endQueryInternal (h : c.transaction.Settled) (success invalidates : Bool) :
    (c.endQueryInternal S success invalidates).2.transaction.autoCommit = c.transaction.autoCommit ∧
      (c.endQueryInternal S success invalidates).2.transaction.Settled := by
  cases hauto : c.transaction.autoCommit with
  | false =>
    rw [endQueryInternal_manual hauto, h.stays]
    cases invalidates with
    | false => exact ⟨hauto, h⟩
    | true => exact ⟨hauto, h.modify _⟩
  | true =>
    cases ht : c.transaction.currentTransaction with
    | none => simpa [endQueryInternal, ht] using And.intro hauto h
    | some t =>
      rw [endQueryInternal_auto ht hauto]
      cases success with
      | false => exact ⟨(c.transaction.rollback_ends ht).2.1, h.rollback ht⟩
      | true => exact ⟨(c.transaction.commit_ends ht).1, h.commit ht⟩

/-- Closing the active query keeps it. -/
theorem settled_initialCleanup (h : c.transaction.Settled) :
    (c.initialCleanup S).transaction.Settled := by
  unfold initialCleanup
  split
  · exact (settled_endQueryInternal h false false).2
  · exact h

/-- Beginning a transaction for a query keeps it. -/
theorem settled_begun (h : c.transaction.Settled) : (c.begun S).transaction.Settled := by
  have hclean := settled_initialCleanup (S := S) h
  unfold begun beginQueryInternal
  split
  · next hauto => exact hclean.beginTransaction hauto
  · split
    · exact hclean
    · exact hclean

/-- A statement that is run leaves the mode that its error tells. -/
theorem runStatement_mode {t : MetaTransaction ω} (h : c.transaction.Settled)
    (ht : c.transaction.currentTransaction = some t) (s : Statement ω) :
    (c.runStatement S s).2.transaction.autoCommit =
        s.modeAfter c.transaction.autoCommit (c.runStatement S s).1 ∧
      (c.runStatement S s).2.transaction.Settled := by
  unfold runStatement
  split
  · next hcheck =>
    obtain ⟨hmode, hsettled⟩ := settled_endQueryInternal (S := S) h false true
    refine ⟨hmode.trans ?_, hsettled⟩
    cases s with
    | work w => rfl
    | transaction type =>
      have hbegin : type = .beginTransaction := by
        rw [Bool.and_eq_true] at hcheck
        simpa [Statement.requiresValidTransaction] using hcheck.2
      simp [failed, hbegin, Statement.modeAfter]
  · cases s with
    | work w =>
      cases w with
      | wrote ws =>
        exact settled_endQueryInternal (c := ⟨c.transaction.write ws, c.activeQuery⟩)
          (h.modify _) true false
      | streams => exact ⟨rfl, h⟩
      | raises invalidates => exact settled_endQueryInternal h false invalidates
    | transaction type =>
      have hmode := TransactionContext.autoCommit_getData (S := S) ht type
      have hsettled := h.getData (S := S) ht type
      have hok := TransactionContext.getData_ok S type ht
      dsimp only
      generalize c.transaction.getData S type.info = r at hmode hsettled hok
      obtain ⟨error, transaction⟩ := r
      have hends := settled_endQueryInternal (S := S) (c := ⟨transaction, c.activeQuery⟩) hsettled
      cases error with
      | some msg => exact ⟨(hends false true).1.trans hmode, (hends false true).2⟩
      | none =>
        refine ⟨?_, (hends true false).2⟩
        dsimp only
        rw [(hends true false).1,
          endQueryInternal_ok (c := ⟨transaction, c.activeQuery⟩) (hok rfl)]
        exact hmode

/-- What a query leaves of the mode. -/
theorem query_mode (S : Storage ω) (h : c.transaction.Settled) (s : Statement ω) :
    (c.query S s).2.transaction.autoCommit =
        s.modeAfter c.transaction.autoCommit (c.query S s).1 ∧
      (c.query S s).2.transaction.Settled := by
  have hbegun := settled_begun (S := S) h
  rcases c.query_begun S h.active s with ⟨msg, hq, hauto⟩ | ⟨t, hq, ht, -, -⟩
  · rw [hq]
    refine ⟨?_, hbegun⟩
    rw [autoCommit_begun, hauto]
    cases s with
    | work w => rfl
    | transaction type => cases type <;> rfl
  · rw [hq, ← c.autoCommit_begun (S := S)]
    exact runStatement_mode hbegun ht s

/-- What a text leaves is what its statement leaves. -/
theorem connectionQuery_of_settled (S : Storage ω) (h : c.transaction.Settled) (s : Statement ω) :
    c.connectionQuery S s = c.query S s := by
  have hstays := (query_mode S h s).2.stays
  unfold connectionQuery
  split
  · next msg c' hq =>
    rw [hq] at hstays ⊢
    simp [show c'.transaction.autoRollback = false from hstays]
  · next c' hq => rw [hq]

/-- Preparing changes neither the mode nor this. -/
theorem prepare_mode (S : Storage ω) (h : c.transaction.Settled) (raises : Option Bool) :
    (c.prepare S raises).2.transaction.autoCommit = c.transaction.autoCommit ∧
      (c.prepare S raises).2.transaction.Settled := by
  have hclean := settled_initialCleanup (S := S) h
  have hmode := c.autoCommit_initialCleanup (S := S)
  unfold prepare
  generalize c.initialCleanup S = c' at hclean hmode
  dsimp only
  rw [← hmode]
  split
  · next hown =>
    rw [Bool.and_eq_true, Option.isNone_iff_eq_none] at hown
    obtain ⟨hauto, hnone⟩ := hown
    have ht : c'.transaction.beginTransaction.2.currentTransaction = some ⟨[], false⟩ := by
      simp [TransactionContext.beginTransaction, hnone]
    have hbegun := hclean.beginTransaction hauto
    rw [hauto]
    cases raises with
    | some invalidates => exact ⟨(TransactionContext.rollback_ends _ ht).2.1, hbegun.rollback ht⟩
    | none => exact ⟨(TransactionContext.commit_ends (S := S) _ ht).1, hbegun.commit ht⟩
  · cases raises with
    | none => exact ⟨rfl, hclean⟩
    | some invalidates =>
      cases invalidates with
      | false => exact ⟨rfl, hclean⟩
      | true => exact ⟨rfl, hclean.modify _⟩

/-- Fetching changes neither. -/
theorem fetch_mode (S : Storage ω) (h : c.transaction.Settled) (a : StreamAnswer) :
    (c.fetch S a).transaction.autoCommit = c.transaction.autoCommit ∧
      (c.fetch S a).transaction.Settled := by
  unfold fetch
  split
  · cases a with
    | chunk => exact ⟨rfl, h⟩
    | done => exact settled_endQueryInternal h true false
    | raises invalidates => exact settled_endQueryInternal h false invalidates
  · exact ⟨rfl, h⟩

end ClientContext

/-! ## Calls on the handle -/

namespace OpenDbc

variable {S : Storage ω} {d : OpenDbc ω}

/-- Whether a call puts the connection into another mode than it was in, as long as its mode is
`autoCommit`. -/
def Switches (S : Storage ω) (d : OpenDbc ω) (autoCommit : Bool) : HandleCall ω → Prop
  | .endTran completionType last =>
    autoCommit = false ∧
      (completionType = 0 ∧ (last = .nothing ∨ last = .opened none) ∨ completionType = 1)
  | .execute (.transaction .beginTransaction) =>
    autoCommit = true ∧ d.executeError S (.transaction .beginTransaction) = none
  | .execute (.transaction _) => autoCommit = false
  | _ => False

/-- Materializing the last result changes neither. -/
theorem materializeResult_mode (S : Storage ω) (h : d.conn.transaction.Settled)
    (last : LastResult) :
    ((d.materializeResult S last).1 = .success ↔ last = .nothing ∨ last = .opened none) ∧
      (d.materializeResult S last).2.conn.transaction.autoCommit = d.conn.transaction.autoCommit ∧
      (d.materializeResult S last).2.conn.transaction.Settled ∧
      (d.materializeResult S last).2.autocommit = d.autocommit := by
  cases last with
  | nothing => exact ⟨by simp [materializeResult], rfl, h, rfl⟩
  | closed => exact ⟨by simp [materializeResult], rfl, h, rfl⟩
  | opened raises =>
    cases raises with
    | none =>
      obtain ⟨hmode, hactive⟩ := ClientContext.fetch_mode S h .done
      exact ⟨by simp [materializeResult], hmode, hactive, rfl⟩
    | some invalidates =>
      obtain ⟨hmode, hactive⟩ := ClientContext.fetch_mode S h (.raises invalidates)
      exact ⟨by simp [materializeResult], hmode, hactive, rfl⟩

/-- A commit or a rollback that reaches the engine puts it back to committing by itself. -/
theorem sqlEndTran_mode (S : Storage ω) (h : d.conn.transaction.Settled) (completionType : ℤ)
    (last : LastResult) :
    ((d.sqlEndTran S completionType last).2.conn.transaction.autoCommit =
        d.conn.transaction.autoCommit ↔
        ¬d.Switches S d.conn.transaction.autoCommit (.endTran completionType last)) ∧
      (d.sqlEndTran S completionType last).2.conn.transaction.Settled ∧
      (d.sqlEndTran S completionType last).2.autocommit = d.autocommit := by
  unfold sqlEndTran
  simp only [Switches]
  by_cases hcommit : completionType = 0
  · obtain ⟨hsuccess, hmode, hactive, hflag⟩ := materializeResult_mode S h last
    simp only [hcommit]
    generalize d.materializeResult S last = m at hsuccess hmode hactive hflag
    obtain ⟨ret, d₁⟩ := m
    dsimp only at hsuccess hmode hactive hflag
    by_cases hret : ret = .success
    · subst hret
      have hlast := hsuccess.1 rfl
      cases hauto : d₁.conn.transaction.autoCommit with
      | true =>
        simp only [if_true, hauto, ← hmode]
        exact ⟨by simp, hactive, hflag⟩
      | false =>
        have htext := ClientContext.connectionQuery_of_settled S hactive (.transaction .commit)
        obtain ⟨hafter, hactive'⟩ := ClientContext.query_mode S hactive (.transaction .commit)
        rw [← hmode, hauto]
        simp only [if_true, hauto, Bool.false_eq_true, if_false, htext]
        change (d₁.conn.query S (.transaction .commit)).2.transaction.autoCommit = true at hafter
        generalize d₁.conn.query S (.transaction .commit) = r at hafter hactive'
        obtain ⟨error, c⟩ := r
        cases error <;> exact ⟨by simpa [hlast] using hafter, hactive', hflag⟩
    · have hlast : ¬(last = .nothing ∨ last = .opened none) := fun hl => hret (hsuccess.2 hl)
      cases ret with
      | success => exact absurd rfl hret
      | _ => exact ⟨by simp [hlast, hmode], hactive, hflag⟩
  · by_cases hrollback : completionType = 1
    · have htext := ClientContext.connectionQuery_of_settled S h (.transaction .rollback)
      obtain ⟨hafter, hactive'⟩ := ClientContext.query_mode S h (.transaction .rollback)
      simp only [hrollback, htext]
      generalize d.conn.query S (.transaction .rollback) = r at hafter hactive'
      obtain ⟨error, c⟩ := r
      have hiff : c.transaction.autoCommit = d.conn.transaction.autoCommit ↔
          ¬(d.conn.transaction.autoCommit = false) := by
        rw [show c.transaction.autoCommit = true from hafter]
        cases d.conn.transaction.autoCommit <;> simp
      cases error <;> exact ⟨by simpa using hiff, hactive', rfl⟩
    · simp only [if_neg hcommit, if_neg hrollback]
      exact ⟨by simp [hcommit, hrollback], h, trivial⟩

/-- What the calls leave of the mode. -/
theorem step_mode (S : Storage ω) (h : d.conn.transaction.Settled) {c : HandleCall ω}
    {call : Call ω}
    (hasks : c.asks = some call) :
    ((d.step S call).conn.transaction.autoCommit = d.conn.transaction.autoCommit ↔
        ¬d.Switches S d.conn.transaction.autoCommit c) ∧
      (d.step S call).conn.transaction.Settled ∧ (d.step S call).autocommit = d.autocommit := by
  cases c with
  | setAttr attr value => simp [HandleCall.asks] at hasks
  | connect => simp [HandleCall.asks] at hasks
  | disconnect => simp [HandleCall.asks] at hasks
  | endTran completionType last =>
    obtain rfl := Option.some.inj hasks
    exact sqlEndTran_mode S h completionType last
  | prepare raises =>
    obtain rfl := Option.some.inj hasks
    obtain ⟨hmode, hactive⟩ := ClientContext.prepare_mode S h raises
    exact ⟨iff_of_true hmode not_false, hactive, rfl⟩
  | fetch a =>
    obtain rfl := Option.some.inj hasks
    obtain ⟨hmode, hactive⟩ := ClientContext.fetch_mode S h a
    exact ⟨iff_of_true hmode not_false, hactive, rfl⟩
  | execute s =>
    obtain rfl := Option.some.inj hasks
    obtain ⟨hmode, hactive⟩ := ClientContext.query_mode S h s
    refine ⟨?_, hactive, rfl⟩
    change (d.conn.query S s).2.transaction.autoCommit = _ ↔ _
    rw [hmode]
    cases s with
    | work w => exact iff_of_true rfl not_false
    | transaction type =>
      cases type with
      | beginTransaction =>
        simp only [Statement.modeAfter, Switches, executeError]
        cases d.conn.transaction.autoCommit <;>
          cases (d.conn.query S (.transaction .beginTransaction)).1 <;> simp
      | commit =>
        cases hauto : d.conn.transaction.autoCommit <;> simp [Statement.modeAfter, Switches]
      | rollback =>
        cases hauto : d.conn.transaction.autoCommit <;> simp [Statement.modeAfter, Switches]

end OpenDbc

/-! ## Runs -/

namespace DbcHandle

/-- What a call sets an attribute to, as far as it is told : it succeeds. -/
def sets (h : DbcHandle ω) : HandleCall ω → ConnAttr → Option ℤ
  | .setAttr attr value, k =>
    if attr = k ∧ (h.setConnectAttr attr value).1.ret = .success then some value else none
  | _, _ => none

/-- The handle with its attributes, each of which is set by the calls that set it. -/
def machine (S : Storage ω) : LastSet.Machine (DbcHandle ω) (HandleCall ω) ConnAttr ℤ :=
  ⟨step S, sets⟩

/-- `SQLGetConnectAttr` returns the value as soon as there is a connection. -/
def Reads (h : DbcHandle ω) (attr : ConnAttr) (value : ℤ) : Prop :=
  { h with opened := true }.getConnectAttr attr = (⟨.success, none⟩, some (.number value))

/-- It is a call that succeeds with the number. -/
theorem reads_eq (h : DbcHandle ω) (attr : ConnAttr) (value : ℤ) :
    h.Reads attr value = (h.attrValue attr = (⟨.success, none⟩, some (.number value))) := rfl

/-- The connection is in the mode of the handle. -/
def InMode (h : DbcHandle ω) : Prop :=
  h.opened = true → h.dbc.conn.transaction.autoCommit = h.dbc.autocommit

/-- Every attribute has what it was set to last, and the engine is in the mode of the attribute,
after every call. -/
def Lawful (S : Storage ω) (h : DbcHandle ω) (cs : List (HandleCall ω)) : Prop :=
  (machine S).Lawful Reads InMode (fun _ _ => True) h cs

/-- The values that an attribute can be set to, on an open handle or not. -/
def MeetsSet (opened : Bool) (value : ℤ) : ConnAttr → Prop
  | .autocommit => opened = true → value = 0 ∨ value = 1
  | .accessMode => opened = true → value = 0 ∨ value = 1 ∨ 2 ≤ value % 2 ^ 32
  | .txnIsolation => opened = true → value = 8
  | .asyncDbcEvent | .asyncDbcFunctionsEnable | .asyncDbcPcallback | .asyncDbcPcontext
  | .asyncEnable | .autoIpd | .connectionDead | .currentCatalog | .queryTimeout | .other _ => True
  | .loginTimeout | .odbcCursors | .packetSize | .vendorMsjet => False
  | _ => opened = false

/-- The calls that keep the law : one that sets an attribute to a value that it can have or is
refused, and one that does not put the engine into another mode. -/
def Meets (S : Storage ω) (h : DbcHandle ω) : HandleCall ω → Prop
  | .setAttr attr value => MeetsSet h.opened value attr
  | c => h.opened = true → ¬h.dbc.Switches S h.dbc.autocommit c

variable {S : Storage ω} {h : DbcHandle ω}

/-- What an attribute that is set changes. -/
theorem setConnectAttr_cases (h : DbcHandle ω) (attr : ConnAttr) (value : ℤ) :
    (h.setConnectAttr attr value).2 = h ∨
      attr = .autocommit ∧ (h.setConnectAttr attr value).2 =
        { h with dbc := h.dbc.setAutocommit value } ∨
      attr = .accessMode ∧ (h.setConnectAttr attr value).2 =
        { h with sqlAttrAccessMode := value % 2 ^ 32 } := by
  cases hopen : h.opened with
  | false => cases attr <;> exact .inl (by simp [setConnectAttr, hopen])
  | true =>
    cases attr with
    | autocommit => exact .inr (.inl ⟨rfl, by simp [setConnectAttr, hopen]⟩)
    | accessMode =>
      simp only [setConnectAttr, hopen, Bool.not_true, Bool.false_eq_true, if_false, setAccessMode]
      split
      · next hm => exact .inr (.inr ⟨trivial, by rw [hm]⟩)
      · split
        · next hm => exact .inr (.inr ⟨trivial, by rw [hm]⟩)
        · exact .inl rfl
    | _ => exact .inl (by simp [setConnectAttr, hopen])

/-- Only the attribute that is set is changed. -/
theorem attrValue_setConnectAttr (h : DbcHandle ω) {attr k : ConnAttr} (hk : k ≠ attr) (value : ℤ) :
    (h.setConnectAttr attr value).2.attrValue k = h.attrValue k := by
  rcases h.setConnectAttr_cases attr value with hsame | ⟨rfl, hset⟩ | ⟨rfl, hset⟩
  · rw [hsame]
  · rw [hset]
    cases k with
    | autocommit => exact absurd rfl hk
    | _ => rfl
  · rw [hset]
    cases k with
    | accessMode => exact absurd rfl hk
    | _ => rfl

/-- Setting the attribute sets the mode of the engine. -/
theorem setAutocommit_mode (d : OpenDbc ω) (h : d.conn.transaction.Settled) (value : ℤ) :
    (d.setAutocommit value).conn.transaction.Settled ∧
      (d.conn.transaction.autoCommit = d.autocommit →
        (d.setAutocommit value).conn.transaction.autoCommit =
        (d.setAutocommit value).autocommit) := by
  unfold OpenDbc.setAutocommit
  split
  · exact ⟨h.setAutoCommit true, fun _ => by simp [OpenDbc.commitsItself]⟩
  · split
    · exact ⟨h.setAutoCommit false,
        fun _ => by simp [OpenDbc.commitsItself]⟩
    · split
      · exact ⟨h, id⟩
      · exact ⟨h, id⟩

/-- A call that does not succeed leaves the handle as it was. -/
theorem setConnectAttr_of_ne {attr : ConnAttr} {value : ℤ}
    (hret : (h.setConnectAttr attr value).1.ret ≠ .success) :
    (h.setConnectAttr attr value).2 = h := by
  cases hopen : h.opened with
  | false => cases attr <;> simp [setConnectAttr, hopen]
  | true =>
    cases attr with
    | autocommit => simp [setConnectAttr, hopen] at hret
    | accessMode =>
      simp only [setConnectAttr, hopen, Bool.not_true, Bool.false_eq_true, if_false,
        setAccessMode] at hret ⊢
      split at hret
      · exact absurd rfl hret
      · next hzero =>
        split at hret
        · exact absurd rfl hret
        · next hone => rw [if_neg hzero, if_neg hone]
    | _ => simp [setConnectAttr, hopen]

/-- An attribute that was set is read back just when the call meets the condition. -/
theorem reads_iff (h : DbcHandle ω) (attr : ConnAttr) (value : ℤ) :
    ((h.setConnectAttr attr value).1.ret = .success →
        (h.setConnectAttr attr value).2.Reads attr value) ↔ MeetsSet h.opened value attr := by
  cases hopen : h.opened with
  | false =>
    cases attr with
    | accessMode => simp [setConnectAttr, hopen, notConnected, MeetsSet]
    | autocommit => simp [setConnectAttr, hopen, notConnected, MeetsSet]
    | txnIsolation => simp [setConnectAttr, hopen, notConnected, MeetsSet]
    | _ => simp [setConnectAttr, hopen, notConnected, MeetsSet, reads_eq, attrValue]
  | true =>
    cases attr with
    | accessMode =>
      have hmod : 0 ≤ value % 2 ^ 32 := Int.emod_nonneg _ (by decide)
      simp only [setConnectAttr, hopen, Bool.not_true, Bool.false_eq_true, if_false, setAccessMode,
        MeetsSet, true_implies]
      split
      · next hm => simp [reads_eq, attrValue]; omega
      · split
        · next hm => simp [reads_eq, attrValue]; omega
        · simp [setError]; omega
    | autocommit =>
      simp only [setConnectAttr, hopen, Bool.not_true, Bool.false_eq_true, if_false, MeetsSet,
        true_implies, reads_eq, attrValue, OpenDbc.setAutocommit]
      split
      · next hv => simp [OpenDbc.commitsItself, hv]
      · split
        · next hv => simp [OpenDbc.commitsItself, hv]
        · split <;> cases h.dbc.autocommit <;> simp <;> omega
    | txnIsolation =>
      simp [setConnectAttr, hopen, MeetsSet, reads_eq, attrValue, eq_comm]
    | _ =>
      simp [setConnectAttr, hopen, MeetsSet, reads_eq, attrValue, setError, optionChanged]

/-- A call that sets an attribute. -/
theorem kept_setAttr_iff (h : DbcHandle ω) (hactive : h.dbc.conn.transaction.Settled)
    {last : ConnAttr → Option ℤ} (hk : LastSet.Machine.Kept Reads InMode h last) (attr : ConnAttr)
    (value : ℤ) :
    LastSet.Machine.Kept Reads InMode (h.setConnectAttr attr value).2
        (fun k => (h.sets (.setAttr attr value) k).or (last k)) ↔
      MeetsSet h.opened value attr := by
  have hmode : (h.setConnectAttr attr value).2.InMode := by
    rcases h.setConnectAttr_cases attr value with hsame | ⟨-, hset⟩ | ⟨-, hset⟩
    · rw [hsame]
      exact hk.2
    · rw [hset]
      exact fun hopen => (setAutocommit_mode h.dbc hactive value).2 (hk.2 hopen)
    · rw [hset]
      exact hk.2
  rw [← reads_iff]
  constructor
  · intro hkept hret
    exact hkept.1 attr value (by simp [sets, hret])
  · refine fun hreads => ⟨fun k v hv => ?_, hmode⟩
    by_cases hset : attr = k ∧ (h.setConnectAttr attr value).1.ret = .success
    · obtain ⟨rfl, hret⟩ := hset
      obtain rfl : value = v := by simpa [sets, hret] using hv
      exact hreads hret
    · have hlast : last k = some v := by simpa [sets, hset] using hv
      by_cases hka : k = attr
      · subst hka
        rw [setConnectAttr_of_ne fun hret => hset ⟨rfl, hret⟩]
        exact hk.1 k v hlast
      · rw [reads_eq, h.attrValue_setConnectAttr hka]
        exact hk.1 k v hlast

/-- A call that sets no attribute and leaves the attributes as they are. -/
theorem kept_iff_inMode {h' : DbcHandle ω} {last : ConnAttr → Option ℤ}
    (hk : LastSet.Machine.Kept Reads InMode h last) (hattrs : ∀ k, h'.attrValue k = h.attrValue k) :
    LastSet.Machine.Kept Reads InMode h' last ↔ h'.InMode := by
  refine ⟨fun hkept => hkept.2, fun hmode => ⟨fun k v hv => ?_, hmode⟩⟩
  rw [reads_eq, hattrs]
  exact hk.1 k v hv

/-- A call on the connection. -/
theorem kept_asks_iff (hs : h.dbc.conn.transaction.Settled) {last : ConnAttr → Option ℤ}
    (hk : LastSet.Machine.Kept Reads InMode h last) {c : HandleCall ω} {call : Call ω}
    (hasks : c.asks = some call) :
    LastSet.Machine.Kept Reads InMode
        (if h.opened then { h with dbc := h.dbc.step S call } else h) last ↔
      (h.opened = true → ¬h.dbc.Switches S h.dbc.autocommit c) := by
  by_cases hopen : h.opened = true
  · obtain ⟨hmode, -, hflag⟩ := OpenDbc.step_mode S hs hasks
    have hin := hk.2 hopen
    rw [hin] at hmode
    rw [if_pos hopen, kept_iff_inMode hk]
    · simp only [InMode, hopen, hflag, true_implies]
      exact hmode
    · intro k
      cases k with
      | autocommit => simp [attrValue, hflag]
      | _ => rfl
  · rw [if_neg hopen]
    exact iff_of_true hk fun ho => absurd ho hopen

/-- What the calls keep of a connection. -/
def Steady (h : DbcHandle ω) : Prop := h.dbc.conn.transaction.Settled

/-- Every call keeps the handle steady. -/
theorem Steady.step (hs : h.Steady) (S : Storage ω) (c : HandleCall ω) : (h.step S c).Steady := by
  have hasked : ∀ call, c.asks = some call →
      (if h.opened then { h with dbc := h.dbc.step S call } else h).Steady := by
    intro call hasks
    split
    · exact (OpenDbc.step_mode S hs hasks).2.1
    · exact hs
  cases c with
  | setAttr attr value =>
    change (h.setConnectAttr attr value).2.Steady
    rcases h.setConnectAttr_cases attr value with hsame | ⟨-, hset⟩ | ⟨-, hset⟩
    · rwa [hsame]
    · rw [hset]
      exact (setAutocommit_mode h.dbc hs value).1
    · rw [hset]
      exact hs
  | connect =>
    change h.connect.Steady
    unfold connect
    split
    · exact hs
    · exact TransactionContext.settled_fresh.setAutoCommit h.dbc.autocommit
  | disconnect => exact hs
  | endTran completionType last => exact hasked _ rfl
  | prepare raises => exact hasked _ rfl
  | execute s => exact hasked _ rfl
  | fetch a => exact hasked _ rfl

/-- What was set last is kept just by the calls that meet their condition. -/
theorem kept_step_iff (S : Storage ω) (hs : h.Steady) {last : ConnAttr → Option ℤ}
    (hk : LastSet.Machine.Kept Reads InMode h last) (c : HandleCall ω) :
    LastSet.Machine.Kept Reads InMode (h.step S c) (fun k => (h.sets c k).or (last k)) ↔
      h.Meets S c := by
  cases c with
  | setAttr attr value => exact kept_setAttr_iff h hs hk attr value
  | connect =>
    refine iff_of_true ((kept_iff_inMode hk ?_).2 ?_) fun _ => not_false
    · intro k
      change h.connect.attrValue k = _
      unfold connect
      split
      · rfl
      · cases k <;> rfl
    · change h.connect.InMode
      unfold connect
      split
      · exact hk.2
      · exact fun _ => TransactionContext.autoCommit_setAutoCommit _ h.dbc.autocommit
  | disconnect =>
    have hattrs : ∀ k, h.disconnect.attrValue k = h.attrValue k := fun k => by cases k <;> rfl
    have hmode : h.disconnect.InMode := fun hopen => absurd hopen (by simp [disconnect])
    exact iff_of_true ((kept_iff_inMode hk hattrs).2 hmode) fun _ => not_false
  | endTran completionType last => exact kept_asks_iff hs hk rfl
  | prepare raises => exact kept_asks_iff hs hk rfl
  | execute s => exact kept_asks_iff hs hk rfl
  | fetch a => exact kept_asks_iff hs hk rfl

end DbcHandle

/-- In every run on a handle, each attribute of the connection has what it was set to last and the
engine is in the auto-commit mode of the attribute, after every call, just when every call meets
the condition in the state that it is made in. -/
theorem connect_attributes_lawful_iff (S : Storage ω) (stored : List ω) (cs : List (HandleCall ω)) :
    (DbcHandle.fresh stored).Lawful S cs ↔ ∀ pre c, pre ++ [c] <+: cs →
      ((DbcHandle.machine S).run (.fresh stored) pre).Meets S c := by
  refine LastSet.Machine.lawful_iff DbcHandle.Steady (fun h _ c => h.Meets S c)
    (fun h c hs => hs.step S c) (fun h last c hs hk => ?_) ?_ ?_ cs
  · rw [and_true]
    exact DbcHandle.kept_step_iff S hs hk c
  · exact TransactionContext.settled_fresh.setAutoCommit true
  · exact fun hopen => absurd hopen (by simp [DbcHandle.fresh])

end HaybarnOdbc.Transactions
