import HaybarnOdbc.Lib.Ledger
import HaybarnOdbc.Lib.Run
import HaybarnOdbc.Transactions

/-!
# Committing by hand

What ODBC says of a connection whose auto-commit is off : what is written is pending until
`SQLEndTran`, from one transaction to the next. `told` is what the replies of the calls tell the
application, and the ledger of it what the application may take the database to have stored.

`Holds` relates the engine to the ledger : what the transaction has written is the end of what is
pending, and all of it unless the engine rolled a transaction back behind a failed statement. It
stands until a call goes astray (`Strays`), in one of four ways. The engine commits by itself again
when a transaction has ended, so a statement behind it is stored at once; auto-commit is turned
on without a commit of what is pending; the commit of a transaction that a failed statement made
invalid is a rollback that succeeds; and so does the commit behind a failed statement that the
engine rolled the transaction back for, with nothing of it left to store.

`stored_follows_iff` says that nothing else goes wrong, in any run.
-/

namespace HaybarnOdbc.Transactions

variable {ω : Type} {S : Storage ω}

/-! ## What the application is told -/

/-- What a statement that begins or ends a transaction tells, if it succeeds and if it fails. A
commit that fails leaves nothing pending. -/
def TransactionType.event : TransactionType → Bool → Option (Ledger.Event ω)
  | .beginTransaction, true => some .began
  | .beginTransaction, false => none
  | .commit, true => some .committed
  | .commit, false => some .rolledBack
  | .rollback, true => some .rolledBack
  | .rollback, false => none

namespace OpenDbc

/-- What the reply of a call tells of the writes. -/
def told (S : Storage ω) (d : OpenDbc ω) : Call ω → Option (Ledger.Event ω)
  | .setAutocommit value =>
    if value = 1 then some (.setManual false)
    else if value = 0 then some (.setManual true)
    else none
  | .endTran completionType last =>
    match (d.sqlEndTran S completionType last).1 with
    | .error _ => some .rolledBack
    | .ok r =>
      if r.ret = .success then some (if completionType = 0 then .committed else .rolledBack)
      else none
  | .prepare _ => none
  | .execute (.work (.wrote ws)) =>
    if (d.executeError S (.work (.wrote ws))).isNone then some (.wrote ws) else none
  | .execute (.work _) => none
  | .execute (.transaction type) => type.event (d.executeError S (.transaction type)).isNone
  | .fetch _ => none

end OpenDbc

/-- The ledger after what is told. -/
def noted (l : Ledger ω) : Option (Ledger.Event ω) → Ledger ω
  | none => l
  | some e => l.apply e

/-- A connection with the ledger of its application, after a call. -/
def next (S : Storage ω) (p : OpenDbc ω × Ledger ω) (c : Call ω) : OpenDbc ω × Ledger ω :=
  (p.1.step S c, noted p.2 (p.1.told S c))

/-! ## The engine and the ledger -/

namespace TransactionContext

/-- A connection that does not commit by itself is in a transaction. -/
def Active (c : TransactionContext ω) : Prop :=
  c.autoCommit = false → c.currentTransaction.isSome = true

/-- What the transaction has written, if there is one. -/
def pending (c : TransactionContext ω) : List ω := (c.currentTransaction.map (·.written)).getD []

/-- What a commit stores. -/
def toStore (c : TransactionContext ω) : List ω := if c.isInvalidated then [] else c.pending

variable {c : TransactionContext ω} {t : MetaTransaction ω}

theorem pending_of_some (ht : c.currentTransaction = some t) : c.pending = t.written := by
  simp [pending, ht]

theorem toStore_of_some (ht : c.currentTransaction = some t) :
    c.toStore = if t.invalidated then [] else t.written := by
  simp [toStore, isInvalidated, pending, ht]

theorem toStore_of_pending_nil (h : c.pending = []) : c.toStore = [] := by
  simp [toStore, h]

end TransactionContext

/-- The database has stored what is kept, and what the transaction has written is the end of what is
pending. There is a transaction unless the connection commits by itself. -/
structure Holds (c : TransactionContext ω) (l : Ledger ω) : Prop where
  stored : c.stored = l.kept
  auto : c.autoCommit = true → c.pending = []
  deferred : c.autoCommit = false → l.deferred = true
  active : c.Active
  written : c.pending <:+ l.work

/-- What is left behind something that may fail. -/
structure Leaves (error : Option String) (c : TransactionContext ω) (ok failed : Ledger ω) :
    Prop where
  ok : error = none → Holds c ok
  failed : error ≠ none → Holds c failed

namespace Leaves

variable {c : TransactionContext ω} {l l' : Ledger ω}

theorem of_ok (h : Holds c l) : Leaves none c l l' := ⟨fun _ => h, absurd rfl⟩

theorem of_failed {msg : String} (h : Holds c l') : Leaves (some msg) c l l' :=
  ⟨fun hnone => by simp at hnone, fun _ => h⟩

theorem of_holds {error : Option String} (h : Holds c l) (h' : Holds c l') : Leaves error c l l' :=
  ⟨fun _ => h, fun _ => h'⟩

theorem holds {error : Option String} (h : Leaves error c l l) : Holds c l := by
  by_cases he : error = none
  · exact h.ok he
  · exact h.failed he

end Leaves

namespace TransactionContext

variable (c : TransactionContext ω)

@[simp] theorem autoCommit_clearTransaction : c.clearTransaction.autoCommit = true := by
  simp [clearTransaction, setAutoCommit]

@[simp] theorem currentTransaction_clearTransaction :
    c.clearTransaction.currentTransaction = none :=
  rfl

@[simp] theorem autoCommit_beginTransaction : c.beginTransaction.2.autoCommit = c.autoCommit := by
  unfold beginTransaction
  split <;> rfl

@[simp] theorem autoCommit_setAutoCommit (value : Bool) :
    (c.setAutoCommit value).autoCommit = value := by
  unfold setAutoCommit
  dsimp only
  split <;> simp

/-- A commit that is made, or refused, ends the transaction. -/
theorem commit_ends {t : MetaTransaction ω} (ht : c.currentTransaction = some t) :
    (c.commit S).2.autoCommit = true ∧ (c.commit S).2.currentTransaction = none := by
  rw [commit, ht]
  dsimp only
  split <;> simp

theorem rollback_ends {t : MetaTransaction ω} (ht : c.currentTransaction = some t) :
    c.rollback.1 = none ∧ c.rollback.2.autoCommit = true ∧
      c.rollback.2.currentTransaction = none := by
  rw [rollback, ht]
  simp

end TransactionContext

namespace Holds

variable {c : TransactionContext ω} {l l' : Ledger ω}

/-- While the connection commits by itself, all that counts is what is kept. -/
theorem of_auto (hauto : c.autoCommit = true) (hpending : c.pending = [])
    (hstored : c.stored = l.kept) : Holds c l where
  stored := hstored
  auto _ := hpending
  deferred ha := by simp [hauto] at ha
  active ha := by simp [hauto] at ha
  written := by
    rw [hpending]
    exact List.nil_suffix

theorem of_kept (h : Holds c l) (hauto : c.autoCommit = true) (hkept : l'.kept = l.kept) :
    Holds c l' :=
  .of_auto hauto (h.auto hauto) (h.stored.trans hkept.symm)

/-- A transaction that is given up. -/
theorem clearTransaction (h : Holds c l) (hkept : l'.kept = l.kept) : Holds c.clearTransaction l' :=
  .of_auto c.autoCommit_clearTransaction rfl (h.stored.trans hkept.symm)

/-- A commit stores what the transaction has written, or fails and gives it up. -/
theorem commit (S : Storage ω) (h : Holds c l) {t : MetaTransaction ω}
    (ht : c.currentTransaction = some t) {ok failed : Ledger ω}
    (hok : ok.kept = l.kept ++ t.written) (hfailed : failed.kept = l.kept) :
    Leaves (c.commit S).1 (c.commit S).2 ok failed := by
  rw [TransactionContext.commit, ht]
  dsimp only
  cases S.refusal c.stored t.written with
  | some msg => exact .of_failed (h.clearTransaction hfailed)
  | none =>
    refine .of_ok (.of_auto c.autoCommit_clearTransaction rfl ?_)
    change c.stored ++ t.written = ok.kept
    rw [hok, h.stored]

theorem rollback (h : Holds c l) {t : MetaTransaction ω} (ht : c.currentTransaction = some t)
    (hkept : l'.kept = l.kept) : Holds c.rollback.2 l' := by
  rw [TransactionContext.rollback, ht]
  exact h.clearTransaction hkept

/-- What a transaction that stays writes is pending. -/
theorem write (h : Holds c l) (hauto : c.autoCommit = false) (ws : List ω) :
    Holds (c.write ws) { l with work := l.work ++ ws } := by
  obtain ⟨t, ht⟩ := Option.isSome_iff_exists.1 (h.active hauto)
  have hmod : (c.write ws).currentTransaction = some { t with written := t.written ++ ws } := by
    simp [TransactionContext.write, TransactionContext.modify, ht]
  refine ⟨h.stored, fun ha => ?_, h.deferred, fun _ => by simp [hmod], ?_⟩
  · exact absurd (hauto.symm.trans ha) (by simp)
  · obtain ⟨lost, hlost⟩ := h.written
    rw [TransactionContext.pending_of_some ht] at hlost
    rw [TransactionContext.pending_of_some hmod]
    exact ⟨lost, by rw [← hlost, List.append_assoc]⟩

theorem invalidate (h : Holds c l) : Holds c.invalidate l := by
  have hpending : c.invalidate.pending = c.pending := by
    cases ht : c.currentTransaction <;>
      simp [TransactionContext.invalidate, TransactionContext.modify,
        TransactionContext.pending, ht]
  refine ⟨h.stored, fun ha => hpending.trans (h.auto ha), h.deferred, fun ha => ?_, ?_⟩
  · simpa [TransactionContext.invalidate, TransactionContext.modify] using h.active ha
  · rw [hpending]
    exact h.written

/-- A transaction of its own that a statement begins has written nothing. -/
theorem beginTransaction (h : Holds c l) (hauto : c.autoCommit = true) :
    Holds c.beginTransaction.2 l := by
  rw [TransactionContext.beginTransaction]
  split
  · exact h
  · exact .of_auto hauto rfl h.stored

end Holds

namespace ClientContext

variable {c : ClientContext ω} {t : MetaTransaction ω}

/-- A query that ends in a transaction of its own ends it. -/
theorem endQueryInternal_auto (ht : c.transaction.currentTransaction = some t)
    (hauto : c.transaction.autoCommit = true) (success invalidates : Bool) :
    c.endQueryInternal S success invalidates =
      if success then ((c.transaction.commit S).1, ⟨(c.transaction.commit S).2, none⟩)
      else (c.transaction.rollback.1, ⟨c.transaction.rollback.2, none⟩) := by
  rw [endQueryInternal, if_neg (by simp [ht]), if_pos hauto]

/-- A query that ends in a transaction that stays can make it invalid, or roll it back. -/
theorem endQueryInternal_manual (hauto : c.transaction.autoCommit = false)
    (success invalidates : Bool) :
    c.endQueryInternal S success invalidates =
      (none, ⟨if invalidates then
          if c.transaction.autoRollback then c.transaction.rollback.2 else c.transaction.invalidate
        else c.transaction, none⟩) := by
  unfold endQueryInternal
  cases ht : c.transaction.currentTransaction with
  | none =>
    have hsame : c.transaction.invalidate = c.transaction := by
      rw [TransactionContext.invalidate, TransactionContext.modify, ht, Option.map_none, ← ht]
    have hnone : c.transaction.rollback.2 = c.transaction := by
      rw [TransactionContext.rollback, ht]
    simp [hsame, hnone]
  | some t =>
    have hrollback := (c.transaction.rollback_ends ht).1
    cases invalidates with
    | false => simp [hauto]
    | true => cases c.transaction.autoRollback <;> simp [hauto, hrollback]

/-- A query that ends behind its transaction, or in one that stays. -/
theorem endQueryInternal_ok (h : c.transaction.currentTransaction = none ∨
    c.transaction.autoCommit = false) : (c.endQueryInternal S true false).1 = none := by
  rcases h with hnone | hauto
  · rw [endQueryInternal, if_pos (Option.isNone_iff_eq_none.2 hnone)]
  · rw [endQueryInternal_manual hauto]

end ClientContext

namespace Holds

variable {c : ClientContext ω} {l : Ledger ω}

/-- What ends a query leaves the ledger as it is. -/
theorem endQueryInternal (S : Storage ω) (h : Holds c.transaction l) (success invalidates : Bool) :
    Holds (c.endQueryInternal S success invalidates).2.transaction l := by
  cases hauto : c.transaction.autoCommit with
  | false =>
    obtain ⟨t, ht⟩ := Option.isSome_iff_exists.1 (h.active hauto)
    rw [ClientContext.endQueryInternal_manual hauto]
    dsimp only
    split
    · split
      · exact h.rollback ht rfl
      · exact h.invalidate
    · exact h
  | true =>
    cases ht : c.transaction.currentTransaction with
    | none => simpa [ClientContext.endQueryInternal, ht] using h
    | some t =>
      have hnil : t.written = [] :=
        (TransactionContext.pending_of_some ht).symm.trans (h.auto hauto)
      rw [ClientContext.endQueryInternal_auto ht hauto]
      cases success with
      | false => exact h.rollback ht rfl
      | true => exact (h.commit S ht (by rw [hnil, List.append_nil]) rfl).holds

theorem initialCleanup (S : Storage ω) (h : Holds c.transaction l) :
    Holds (c.initialCleanup S).transaction l := by
  unfold ClientContext.initialCleanup
  split
  · exact h.endQueryInternal S false false
  · exact h

theorem beginQueryInternal (h : Holds c.transaction l) :
    Holds c.beginQueryInternal.2.transaction l := by
  unfold ClientContext.beginQueryInternal
  split
  · next hauto => exact h.beginTransaction hauto
  · split
    · exact h
    · exact h

end Holds

/-! ## Statements -/

namespace ClientContext

variable (c : ClientContext ω)

/-- The end of a query that does not make its transaction invalid keeps the mode. -/
@[simp] theorem autoCommit_endQueryInternal (success : Bool) :
    (c.endQueryInternal S success false).2.transaction.autoCommit = c.transaction.autoCommit := by
  cases hauto : c.transaction.autoCommit with
  | false =>
    rw [endQueryInternal_manual hauto]
    exact hauto
  | true =>
    cases ht : c.transaction.currentTransaction with
    | none => simpa [endQueryInternal, ht] using hauto
    | some t =>
      rw [endQueryInternal_auto ht hauto]
      cases success with
      | false => exact (c.transaction.rollback_ends ht).2.1
      | true => exact (c.transaction.commit_ends ht).1

@[simp] theorem autoCommit_initialCleanup :
    (c.initialCleanup S).transaction.autoCommit = c.transaction.autoCommit := by
  unfold initialCleanup
  split
  · exact autoCommit_endQueryInternal c false
  · rfl

@[simp] theorem autoCommit_beginQueryInternal :
    c.beginQueryInternal.2.transaction.autoCommit = c.transaction.autoCommit := by
  unfold beginQueryInternal
  split
  · simp
  · split <;> rfl

/-- A connection that does not commit by itself keeps its transaction as it is. -/
theorem currentTransaction_initialCleanup (hauto : c.transaction.autoCommit = false) :
    (c.initialCleanup S).transaction.currentTransaction = c.transaction.currentTransaction := by
  unfold initialCleanup
  rw [endQueryInternal_manual hauto]
  split <;> rfl

/-- A query that has begun is in a transaction, one that has written nothing if it is its own. -/
theorem beginQueryInternal_ok {c : ClientContext ω} (h : c.beginQueryInternal.1 = none) :
    ∃ t, c.beginQueryInternal.2.transaction.currentTransaction = some t ∧
      (c.transaction.autoCommit = true → t = ⟨[], false⟩) ∧
      (c.transaction.autoCommit = false → c.transaction.currentTransaction = some t) := by
  unfold beginQueryInternal at h ⊢
  cases hauto : c.transaction.autoCommit with
  | true =>
    rw [if_pos hauto] at h
    rw [if_pos rfl]
    cases ht : c.transaction.currentTransaction with
    | none => exact ⟨⟨[], false⟩, by simp [TransactionContext.beginTransaction, ht]⟩
    | some t => simp [TransactionContext.beginTransaction, ht] at h
  | false =>
    rw [if_neg (by simp [hauto])] at h
    rw [if_neg Bool.false_ne_true]
    cases ht : c.transaction.currentTransaction with
    | none => simp [ht] at h
    | some t => exact ⟨t, by simp [ht]⟩

/-- The connection when a query has begun, or failed to. -/
def begun (S : Storage ω) (c : ClientContext ω) : ClientContext ω :=
  (c.initialCleanup S).beginQueryInternal.2

theorem autoCommit_begun : (c.begun S).transaction.autoCommit = c.transaction.autoCommit := by
  simp [begun]

/-- A query fails before it has begun, or it is run in a transaction. -/
theorem query_begun (S : Storage ω) (hactive : c.transaction.Active) (s : Statement ω) :
    (∃ msg, c.query S s = (some msg, c.begun S) ∧ c.transaction.autoCommit = true) ∨
      ∃ t, c.query S s = (c.begun S).runStatement S s ∧
        (c.begun S).transaction.currentTransaction = some t ∧
        (c.transaction.autoCommit = true → t = ⟨[], false⟩) ∧
        (c.transaction.autoCommit = false → c.transaction.currentTransaction = some t) := by
  have hcurrent := c.currentTransaction_initialCleanup (S := S)
  unfold query begun
  cases he : (c.initialCleanup S).beginQueryInternal.1 with
  | some msg =>
    refine .inl ⟨msg, ?_, ?_⟩
    · rw [← Prod.mk.eta (p := (c.initialCleanup S).beginQueryInternal), he]
    · by_contra ha
      have hmanual : c.transaction.autoCommit = false := by simpa using ha
      obtain ⟨t, ht⟩ := Option.isSome_iff_exists.1 (hactive hmanual)
      simp [beginQueryInternal, hmanual, hcurrent hmanual, ht] at he
  | none =>
    obtain ⟨t, ht, hown, hstays⟩ := beginQueryInternal_ok he
    refine .inr ⟨t, ?_, ht, ?_, ?_⟩
    · rw [← Prod.mk.eta (p := (c.initialCleanup S).beginQueryInternal), he]
    · exact fun ha => hown (by simpa using ha)
    · exact fun ha => (hcurrent ha).symm.trans (hstays (by simpa using ha))

end ClientContext

namespace Holds

/-- A statement that ran to its end, in a transaction of its own or in one that stays. -/
theorem wrote (S : Storage ω) {c : ClientContext ω} {l : Ledger ω} (h : Holds c.transaction l)
    {t : MetaTransaction ω} (ht : c.transaction.currentTransaction = some t) (ws : List ω) :
    Leaves (c.runStatement S (.work (.wrote ws))).1
      (c.runStatement S (.work (.wrote ws))).2.transaction
      (if c.transaction.autoCommit then { l with kept := l.kept ++ ws }
        else { l with work := l.work ++ ws }) l := by
  unfold ClientContext.runStatement
  split
  · exact .of_failed (h.endQueryInternal S false true)
  · dsimp only
    cases hauto : c.transaction.autoCommit with
    | false =>
      rw [ClientContext.endQueryInternal_manual
        (c := ⟨c.transaction.write ws, c.activeQuery⟩) hauto]
      exact .of_ok (h.write hauto ws)
    | true =>
      have hmod : (c.transaction.write ws).currentTransaction =
        some ⟨t.written ++ ws, t.invalidated⟩ := by
        simp [TransactionContext.write, TransactionContext.modify, ht]
      have hnil : t.written = [] :=
        (TransactionContext.pending_of_some ht).symm.trans (h.auto hauto)
      rw [ClientContext.endQueryInternal_auto
        (c := ⟨c.transaction.write ws, c.activeQuery⟩) hmod hauto,
        if_pos rfl, if_pos rfl, TransactionContext.commit, hmod]
      dsimp only
      split
      · exact .of_failed (.of_auto (c.transaction.write ws).autoCommit_clearTransaction
          rfl h.stored)
      · refine .of_ok (.of_auto (c.transaction.write ws).autoCommit_clearTransaction rfl ?_)
        change c.transaction.stored ++ (t.written ++ ws) = l.kept ++ ws
        rw [h.stored, hnil, List.nil_append]

section GetData

variable {c : TransactionContext ω} {l ok failed : Ledger ω} {t : MetaTransaction ω}

theorem getData_begin (S : Storage ω) (h : Holds c l) (ht : c.currentTransaction = some t) :
    Leaves (c.getData S TransactionType.beginTransaction.info).1
      (c.getData S TransactionType.beginTransaction.info).2 (l.apply .began) l := by
  cases hauto : c.autoCommit with
  | false =>
    simpa [TransactionContext.getData, TransactionType.info, hauto] using Leaves.of_failed h
  | true =>
    have hset : c.setAutoCommit false = { c with autoCommit := false } := by
      simp [TransactionContext.setAutoCommit, ht]
    have hbegan : Holds ⟨false, false, c.currentTransaction, c.stored⟩ (l.apply .began) :=
      ⟨h.stored, fun ha => by simp at ha, fun _ => by simp [Ledger.apply, Ledger.deferred],
        fun _ => by simp [ht], h.written⟩
    have hleaves : Leaves none ⟨false, false, c.currentTransaction, c.stored⟩ (l.apply .began) l :=
      .of_ok hbegan
    simpa [TransactionContext.getData, TransactionType.info, hauto, hset] using hleaves

/-- A commit stores what it has to store, or fails and gives it up. -/
theorem getData_commit (S : Storage ω) (h : Holds c l) (ht : c.currentTransaction = some t)
    (hok : ok.kept = l.kept ++ c.toStore) (hfailed : failed.kept = l.kept) :
    Leaves (c.getData S TransactionType.commit.info).1
    (c.getData S TransactionType.commit.info).2 ok
      failed := by
  have hinvalid : c.isInvalidated = t.invalidated := by simp [TransactionContext.isInvalidated, ht]
  rw [TransactionContext.toStore_of_some ht] at hok
  cases hauto : c.autoCommit with
  | false =>
    cases hi : t.invalidated with
    | false =>
      simpa [TransactionContext.getData, TransactionType.info, hauto, hinvalid, hi] using
        h.commit S ht (by simpa [hi] using hok) hfailed
    | true =>
      have hrollback : Holds c.rollback.2 ok := h.rollback ht (by simpa [hi] using hok)
      have hleaves : Leaves c.rollback.1 c.rollback.2 ok failed :=
        .of_holds hrollback (h.rollback ht hfailed)
      simpa [TransactionContext.getData, TransactionType.info, hauto, hinvalid, hi] using hleaves
  | true =>
    have hkept := h.of_kept hauto hfailed
    cases hi : t.invalidated <;>
      simpa [TransactionContext.getData, TransactionType.info, hauto, hinvalid, hi] using
        Leaves.of_failed hkept

theorem getData_rollback (S : Storage ω) (h : Holds c l) (ht : c.currentTransaction = some t) :
    Leaves (c.getData S TransactionType.rollback.info).1
    (c.getData S TransactionType.rollback.info).2
      (l.apply .rolledBack) l := by
  cases hauto : c.autoCommit with
  | false =>
    have hrollback : Holds c.rollback.2 (l.apply .rolledBack) := h.rollback ht rfl
    rw [TransactionContext.rollback, ht] at hrollback
    simpa [TransactionContext.getData, TransactionType.info, hauto, TransactionContext.rollback, ht]
      using Leaves.of_ok hrollback
  | true => simpa [TransactionContext.getData, TransactionType.info, hauto] using Leaves.of_failed h

end GetData

end Holds

/-- A transaction statement that succeeds leaves no transaction that the end of its query ends. -/
theorem TransactionContext.getData_ok (S : Storage ω) (type : TransactionType)
    {c : TransactionContext ω} {t : MetaTransaction ω} (ht : c.currentTransaction = some t)
    (hok : (c.getData S type.info).1 = none) :
    (c.getData S type.info).2.currentTransaction = none ∨
    (c.getData S type.info).2.autoCommit = false := by
  unfold getData TransactionType.info at hok ⊢
  dsimp only at hok ⊢
  split
  · next hbegin =>
    rw [hbegin] at hok
    cases hauto : c.autoCommit with
    | true => exact .inr (by simp)
    | false => simp [hauto] at hok
  · next hcommit =>
    rw [hcommit] at hok
    cases hauto : c.autoCommit with
    | true => simp [hauto] at hok
    | false => exact .inl (c.commit_ends ht).2
  · next hrollback =>
    rw [hrollback] at hok
    cases hauto : c.autoCommit with
    | true => simp [hauto] at hok
    | false => exact .inl (c.rollback_ends ht).2.2

namespace Holds

/-- A statement that begins or ends a transaction is run. -/
theorem runTransaction (S : Storage ω) {c : ClientContext ω} {l ok failed : Ledger ω}
    (h : Holds c.transaction l) {t : MetaTransaction ω}
    (ht : c.transaction.currentTransaction = some t) {type : TransactionType}
    (hdata : Leaves (c.transaction.getData S type.info).1
    (c.transaction.getData S type.info).2 ok failed)
    (hfailed : type = .beginTransaction → failed = l) :
    Leaves (c.runStatement S (.transaction type)).1
      (c.runStatement S (.transaction type)).2.transaction ok failed := by
  unfold ClientContext.runStatement
  split
  · next hcheck =>
    have hbegin : type = .beginTransaction := by
      simp only [Bool.and_eq_true] at hcheck
      simpa [Statement.requiresValidTransaction] using hcheck.2
    rw [hfailed hbegin]
    exact .of_failed (h.endQueryInternal S false true)
  · dsimp only
    have hends := TransactionContext.getData_ok S type ht
    generalize c.transaction.getData S type.info = r at hdata hends
    obtain ⟨error, transaction⟩ := r
    cases error with
    | some msg =>
      exact .of_failed (Holds.endQueryInternal (c := ⟨transaction, c.activeQuery⟩) S
        (hdata.failed (by simp)) false true)
    | none =>
      have hholds := Holds.endQueryInternal (c := ⟨transaction, c.activeQuery⟩) S (hdata.ok rfl)
        true false
      dsimp only
      rw [ClientContext.endQueryInternal_ok (c := ⟨transaction, c.activeQuery⟩) (hends rfl)]
      exact .of_ok hholds

/-- A query fails before it has begun, or it is run in a transaction. -/
theorem query_cases (S : Storage ω) {c : ClientContext ω} {l : Ledger ω} (h : Holds c.transaction l)
    (s : Statement ω) :
    (∃ msg c', c.query S s = (some msg, c') ∧ Holds c'.transaction l ∧
        c'.transaction.autoCommit = true) ∨
      ∃ (c₁ : ClientContext ω) (t : MetaTransaction ω),
        c.query S s = c₁.runStatement S s ∧ Holds c₁.transaction l ∧
        c₁.transaction.currentTransaction = some t ∧
        c₁.transaction.autoCommit = c.transaction.autoCommit ∧
        (c.transaction.autoCommit = true → t = ⟨[], false⟩) ∧
        (c.transaction.autoCommit = false → c.transaction.currentTransaction = some t) := by
  have hbegun : Holds (c.begun S).transaction l := (h.initialCleanup S).beginQueryInternal
  rcases c.query_begun S h.active s with ⟨msg, hq, hauto⟩ | ⟨t, hq, ht, hown, hstays⟩
  · exact .inl ⟨msg, _, hq, hbegun, c.autoCommit_begun.trans hauto⟩
  · exact .inr ⟨_, t, hq, hbegun, ht, c.autoCommit_begun, hown, hstays⟩

theorem query_wrote (S : Storage ω) {c : ClientContext ω} {l : Ledger ω} (h : Holds c.transaction l)
    (ws : List ω) :
    Leaves (c.query S (.work (.wrote ws))).1 (c.query S (.work (.wrote ws))).2.transaction
      (if c.transaction.autoCommit then { l with kept := l.kept ++ ws }
        else { l with work := l.work ++ ws }) l := by
  rcases h.query_cases S (.work (.wrote ws)) with
    ⟨msg, c', hq, hc', -⟩ | ⟨c₁, t, hq, hc₁, ht, hauto, -, -⟩
  · rw [hq]
    exact .of_failed hc'
  · rw [hq, ← hauto]
    exact hc₁.wrote S ht ws

/-- A statement that raises an error, or whose result stays open, leaves the ledger as it is. -/
theorem query_work (S : Storage ω) {c : ClientContext ω} {l : Ledger ω} (h : Holds c.transaction l)
    {w : Work ω} (hw : ∀ ws, w ≠ .wrote ws) : Holds (c.query S (.work w)).2.transaction l := by
  rcases h.query_cases S (.work w) with ⟨msg, c', hq, hc', -⟩ | ⟨c₁, t, hq, hc₁, -⟩
  · rwa [hq]
  · rw [hq]
    unfold ClientContext.runStatement
    split
    · exact hc₁.endQueryInternal S false true
    · cases w with
      | wrote ws => exact absurd rfl (hw ws)
      | streams => exact hc₁
      | raises invalidates => exact hc₁.endQueryInternal S false invalidates

/-- What a query that begins or ends a transaction leaves, as the ledger after it and the one after
its failure. A commit stores what it has to store, which is nothing of an invalid transaction. -/
theorem query_transaction (S : Storage ω) {c : ClientContext ω} {l : Ledger ω}
    (h : Holds c.transaction l) (type : TransactionType) (ok : Ledger ω) {failed : Ledger ω}
    (hok : if type = .commit then ok.kept = l.kept ++ c.transaction.toStore
      else ok = noted l (type.event true))
    (hfailed : failed = noted l (type.event false)) :
    Leaves (c.query S (.transaction type)).1 (c.query S (.transaction type)).2.transaction ok
      failed := by
  have hkept : type = .commit → failed.kept = l.kept := by
    rintro rfl
    rw [hfailed]
    rfl
  rcases h.query_cases S (.transaction type) with
    ⟨msg, c', hq, hc', hauto⟩ | ⟨c₁, t, hq, hc₁, ht, hauto, hown, hstays⟩
  · rw [hq]
    refine .of_failed ?_
    cases type with
    | beginTransaction => exact hfailed ▸ hc'
    | commit => exact hc'.of_kept hauto (hkept rfl)
    | rollback => exact hfailed ▸ hc'
  · rw [hq]
    cases type with
    | beginTransaction =>
      obtain rfl : ok = l.apply .began := hok
      obtain rfl : failed = l := hfailed
      exact hc₁.runTransaction S ht (hc₁.getData_begin S ht) fun _ => rfl
    | commit =>
      refine hc₁.runTransaction S ht (hc₁.getData_commit S ht ?_ (hkept rfl)) fun hne => nomatch hne
      rw [if_pos rfl] at hok
      rw [hok, TransactionContext.toStore_of_some ht]
      cases hauto' : c.transaction.autoCommit with
      | true => rw [hown hauto', TransactionContext.toStore_of_pending_nil (h.auto hauto')]; rfl
      | false => rw [TransactionContext.toStore_of_some (hstays hauto')]
    | rollback =>
      obtain rfl : ok = l.apply .rolledBack := hok
      obtain rfl : failed = l := hfailed
      exact hc₁.runTransaction S ht (hc₁.getData_rollback S ht) fun hne => nomatch hne

end Holds

/-- What a text leaves is what its statement leaves, also where the transaction is rolled back
behind an error. -/
theorem Leaves.connectionQuery {c : ClientContext ω} {s : Statement ω} {ok failed : Ledger ω}
    (h : Leaves (c.query S s).1 (c.query S s).2.transaction ok failed) :
    Leaves (c.connectionQuery S s).1 (c.connectionQuery S s).2.transaction ok failed := by
  unfold ClientContext.connectionQuery
  generalize c.query S s = r at h
  obtain ⟨error, c'⟩ := r
  cases error with
  | none => exact h
  | some msg =>
    have hfailed := h.failed (by simp)
    dsimp only
    split
    · next hrolls =>
      rw [Bool.and_eq_true] at hrolls
      obtain ⟨t, ht⟩ := Option.isSome_iff_exists.1 hrolls.1
      exact .of_failed (hfailed.rollback ht rfl)
    · exact .of_failed hfailed

namespace Holds

theorem prepare (S : Storage ω) {c : ClientContext ω} {l : Ledger ω} (h : Holds c.transaction l)
    (raises : Option Bool) : Holds (c.prepare S raises).2.transaction l := by
  have hclean := h.initialCleanup S
  unfold ClientContext.prepare
  generalize c.initialCleanup S = c' at hclean
  dsimp only
  split
  · next hown =>
    rw [Bool.and_eq_true, Option.isNone_iff_eq_none] at hown
    obtain ⟨hauto, hnone⟩ := hown
    have hbegun := hclean.beginTransaction hauto
    have ht : c'.transaction.beginTransaction.2.currentTransaction = some ⟨[], false⟩ := by
      simp [TransactionContext.beginTransaction, hnone]
    cases raises with
    | some invalidates => exact hbegun.rollback ht rfl
    | none => exact (hbegun.commit S ht (List.append_nil _).symm rfl).holds
  · cases raises with
    | none => exact hclean
    | some invalidates =>
      cases invalidates with
      | false => exact hclean
      | true => exact hclean.invalidate

theorem fetch (S : Storage ω) {c : ClientContext ω} {l : Ledger ω} (h : Holds c.transaction l)
    (a : StreamAnswer) : Holds (c.fetch S a).transaction l := by
  unfold ClientContext.fetch
  split
  · cases a with
    | chunk => exact h
    | done => exact h.endQueryInternal S true false
    | raises invalidates => exact h.endQueryInternal S false invalidates
  · exact h

/-- Auto-commit is turned on with nothing pending. -/
theorem commitsItself {c : TransactionContext ω} {l : Ledger ω} (h : Holds c l)
    (hwork : l.work = []) :
    Holds (c.setAutoCommit true) (l.apply (.setManual false)) := by
  have hpending : c.pending = [] := List.suffix_nil.1 (hwork ▸ h.written)
  refine .of_auto (c.autoCommit_setAutoCommit true) hpending ?_
  change c.stored = l.kept ++ l.work
  rw [h.stored, hwork, List.append_nil]

/-- Auto-commit is turned off. What the engine rolled back before is pending still, and not in the
transaction that begins. -/
theorem commitsByHand {c : TransactionContext ω} {l : Ledger ω} (h : Holds c l) :
    Holds (c.setAutoCommit false) (l.apply (.setManual true)) := by
  cases ht : c.currentTransaction with
  | some t =>
    have hset : c.setAutoCommit false = { c with autoCommit := false } := by
      simp [TransactionContext.setAutoCommit, ht]
    rw [hset]
    exact ⟨h.stored, nofun, fun _ => rfl, fun _ => by simp [ht], h.written⟩
  | none =>
    have hset : c.setAutoCommit false = ⟨false, c.autoRollback, some ⟨[], false⟩, c.stored⟩ := by
      simp [TransactionContext.setAutoCommit, TransactionContext.beginTransaction, ht]
    rw [hset]
    exact ⟨h.stored, nofun, fun _ => rfl, fun _ => rfl, List.nil_suffix⟩

/-- What a commit finds of the last statement leaves the ledger as it is, and a transaction that
stays as it was if the result could be materialized. -/
theorem materializeResult (S : Storage ω) {d : OpenDbc ω} {l : Ledger ω}
    (h : Holds d.conn.transaction l) (last : LastResult) :
    Holds (d.materializeResult S last).2.conn.transaction l ∧
      ((d.materializeResult S last).1 = .success →
        (d.materializeResult S last).2.conn.transaction.autoCommit = d.conn.transaction.autoCommit ∧
          (d.conn.transaction.autoCommit = false →
            (d.materializeResult S last).2.conn.transaction = d.conn.transaction)) := by
  cases last with
  | nothing => exact ⟨h, fun _ => ⟨rfl, fun _ => rfl⟩⟩
  | closed => exact ⟨h, nofun⟩
  | opened raises =>
    cases raises with
    | some invalidates => exact ⟨h.fetch S _, nofun⟩
    | none =>
      refine ⟨h.fetch S _, fun _ => ?_⟩
      change (d.conn.fetch S .done).transaction.autoCommit = _ ∧
        (_ → (d.conn.fetch S .done).transaction = _)
      unfold ClientContext.fetch
      split
      · refine ⟨by simp, fun ha => ?_⟩
        dsimp only
        rw [ClientContext.endQueryInternal_manual ha]
        rfl
      · exact ⟨rfl, fun _ => rfl⟩

end Holds

/-! ## Runs -/

/-- A commit that succeeds does not store what is pending : a failed statement made the transaction
invalid, or the engine rolled it back. -/
def CommitsOther (c : TransactionContext ω) (l : Ledger ω) : Prop :=
  l.work ≠ [] ∧ (c.isInvalidated = true ∨ c.pending ≠ l.work)

/-- The calls behind which the application takes something else to be stored than what is : one
that turns auto-commit on with writes pending, a commit that succeeds without them, and a statement
that writes behind the end of a transaction that put the engine back to committing by itself. -/
def Strays (S : Storage ω) (d : OpenDbc ω) (l : Ledger ω) : Call ω → Prop
  | .setAutocommit value => value = 1 ∧ l.work ≠ []
  | .endTran completionType last =>
    completionType = 0 ∧ (d.sqlEndTran S 0 last).1 = .ok ⟨.success, none⟩ ∧
      CommitsOther d.conn.transaction l
  | .prepare _ => False
  | .execute (.work (.wrote ws)) =>
    d.executeError S (.work (.wrote ws)) = none ∧ l.deferred = true ∧
      d.conn.transaction.autoCommit = true ∧ ws ≠ []
  | .execute (.work _) => False
  | .execute (.transaction type) =>
    type = .commit ∧ d.executeError S (.transaction .commit) = none ∧
      CommitsOther d.conn.transaction l
  | .fetch _ => False

section Step

variable {d : OpenDbc ω} {l : Ledger ω}

theorem Holds.commitsOther_iff {c : TransactionContext ω} (h : Holds c l) :
    CommitsOther c l ↔ c.toStore ≠ l.work := by
  unfold CommitsOther TransactionContext.toStore
  cases c.isInvalidated with
  | true => simp [eq_comm]
  | false =>
    simp only [Bool.false_eq_true, false_or, if_false]
    refine and_iff_right_of_imp fun hne hnil => hne ?_
    have hpending : c.pending = [] := List.suffix_nil.1 (hnil ▸ h.written)
    rw [hnil, hpending]

/-- A commit that stores what there is to store. -/
theorem Holds.commits (h : Holds d.conn.transaction l) {error : Option String}
    {c : TransactionContext ω} (hquery : ∀ ok failed : Ledger ω,
      ok.kept = l.kept ++ d.conn.transaction.toStore → failed = l.apply .rolledBack →
        Leaves error c ok failed) :
    (¬(error = none ∧ CommitsOther d.conn.transaction l) →
        Leaves error c (l.apply .committed) (l.apply .rolledBack)) ∧
      (error = none → CommitsOther d.conn.transaction l →
      c.stored ≠ (l.apply .committed).kept) := by
  rw [h.commitsOther_iff]
  constructor
  · intro hstray
    cases error with
    | some msg => exact .of_failed ((hquery ⟨false, false, _, []⟩ _ rfl rfl).failed (by simp))
    | none =>
      have heq : d.conn.transaction.toStore = l.work := by simpa using hstray
      refine hquery _ _ ?_ rfl
      rw [heq]
      rfl
  · rintro rfl hne
    rw [((hquery ⟨false, false, _, []⟩ _ rfl rfl).ok rfl).stored]
    simpa [Ledger.apply, Ledger.commit] using hne

/-- What the reply of a commit or a rollback tells is what it leaves, unless it goes astray. -/
theorem Holds.endTran (h : Holds d.conn.transaction l) (completionType : ℤ) (last : LastResult) :
    (¬Strays S d l (.endTran completionType last) →
        Holds (next S (d, l) (.endTran completionType last)).1.conn.transaction
          (next S (d, l) (.endTran completionType last)).2) ∧
      (Strays S d l (.endTran completionType last) →
        (next S (d, l) (.endTran completionType last)).1.conn.transaction.stored ≠
          (next S (d, l) (.endTran completionType last)).2.kept) := by
  simp only [next, OpenDbc.step, OpenDbc.told, Strays]
  by_cases hcommit : completionType = 0
  · subst hcommit
    simp only [true_and, OpenDbc.sqlEndTran, if_true]
    obtain ⟨hm, hsame⟩ := h.materializeResult S last
    generalize d.materializeResult S last = m at hm hsame
    obtain ⟨ret, d₁⟩ := m
    dsimp only at hm hsame
    by_cases hret : ret = .success
    · subst hret
      obtain ⟨hauto, hstays⟩ := hsame rfl
      dsimp only
      cases ha : d₁.conn.transaction.autoCommit with
      | true =>
        rw [ha] at hauto
        have hnil := TransactionContext.toStore_of_pending_nil (h.auto hauto.symm)
        simp only [if_true, noted, true_and]
        rw [h.commitsOther_iff, hnil]
        refine ⟨fun hstray => ?_, fun hstray => ?_⟩
        · refine hm.of_kept ha ?_
          change l.kept ++ l.work = l.kept
          rw [← not_not.1 hstray, List.append_nil]
        · rw [hm.stored]
          change l.kept ≠ l.kept ++ l.work
          simpa [eq_comm] using hstray
      | false =>
        rw [ha] at hauto
        have hconn := hstays hauto.symm
        obtain ⟨hok, hstrays⟩ := h.commits
          (c := (d₁.conn.connectionQuery S (.transaction .commit)).2.transaction)
          fun ok failed hkept hfailed => .connectionQuery (hm.query_transaction S .commit ok
            (by rw [if_pos rfl, hconn, hkept]) hfailed)
        simp only [Bool.false_eq_true, if_false]
        generalize d₁.conn.connectionQuery S (.transaction .commit) = r at hok hstrays
        obtain ⟨error, c⟩ := r
        cases error with
        | none =>
          simp only [true_and]
          exact ⟨fun hstray => (hok fun hw => hstray hw.2).ok rfl, fun hstray => hstrays rfl hstray⟩
        | some msg =>
          exact ⟨fun _ => (hok fun hw => nomatch hw.1).failed (by simp),
            fun hstray => nomatch hstray.1⟩
    · cases ret with
      | success => exact absurd rfl hret
      | _ => exact ⟨fun _ => hm, fun hstray => nomatch hstray.1⟩
  · simp only [hcommit, false_and, not_false_eq_true, true_implies, false_implies, and_true]
    unfold OpenDbc.sqlEndTran
    by_cases hrollback : completionType = 1
    · simp only [if_neg hcommit, if_pos hrollback]
      have hq := (h.query_transaction S .rollback (l.apply .rolledBack) rfl rfl).connectionQuery
      generalize d.conn.connectionQuery S (.transaction .rollback) = r at hq
      obtain ⟨error, c⟩ := r
      cases error with
      | none => exact hq.ok rfl
      | some msg => exact hq.failed (by simp)
    · simp only [if_neg hcommit, if_neg hrollback]
      exact h

theorem Holds.setAutocommit (h : Holds d.conn.transaction l) (value : ℤ) :
    (¬Strays S d l (.setAutocommit value) →
        Holds (next S (d, l) (.setAutocommit value)).1.conn.transaction
          (next S (d, l) (.setAutocommit value)).2) ∧
      (Strays S d l (.setAutocommit value) →
        (next S (d, l) (.setAutocommit value)).1.conn.transaction.stored ≠
          (next S (d, l) (.setAutocommit value)).2.kept) := by
  simp only [next, OpenDbc.step, OpenDbc.told, OpenDbc.setAutocommit, Strays]
  by_cases hon : value = 1
  · simp only [hon, if_true, true_and]
    refine ⟨fun hwork => h.commitsItself (not_not.1 hwork), fun hwork => ?_⟩
    change d.conn.transaction.stored ≠ l.kept ++ l.work
    rw [h.stored]
    simpa using hwork
  · simp only [hon, if_false, false_and, not_false_eq_true, true_implies, false_implies, and_true]
    by_cases hoff : value = 0
    · simp only [if_pos hoff]
      exact h.commitsByHand
    · simp only [if_neg hoff]
      split
      · exact h
      · exact h

theorem Holds.execute_wrote (h : Holds d.conn.transaction l) (ws : List ω) :
    (¬Strays S d l (.execute (.work (.wrote ws))) →
        Holds (next S (d, l) (.execute (.work (.wrote ws)))).1.conn.transaction
          (next S (d, l) (.execute (.work (.wrote ws)))).2) ∧
      (Strays S d l (.execute (.work (.wrote ws))) →
        (next S (d, l) (.execute (.work (.wrote ws)))).1.conn.transaction.stored ≠
          (next S (d, l) (.execute (.work (.wrote ws)))).2.kept) := by
  have hq := h.query_wrote S ws
  rcases hr : d.conn.query S (.work (.wrote ws)) with ⟨error, c⟩
  rw [hr] at hq
  simp only [next, OpenDbc.step, OpenDbc.told, OpenDbc.executeError, Strays, hr]
  cases error with
  | some msg => exact ⟨fun _ => hq.failed (by simp), fun hstray => absurd hstray.1 (by simp)⟩
  | none =>
    have hc := hq.ok rfl
    simp only [Option.isNone_none, if_true, noted, Ledger.apply, true_and]
    cases hauto : d.conn.transaction.autoCommit with
    | false =>
      rw [hauto, if_neg Bool.false_ne_true] at hc
      rw [if_pos (h.deferred hauto)]
      exact ⟨fun _ => hc, fun hstray => absurd hstray.2.1 (by simp)⟩
    | true =>
      rw [hauto, if_pos rfl] at hc
      cases hdeferred : l.deferred with
      | false => exact ⟨fun _ => hc, fun hstray => absurd hstray.1 (by simp)⟩
      | true =>
        rw [if_pos rfl]
        constructor
        · intro hstray
          obtain rfl : ws = [] := by
            by_contra hne
            exact hstray ⟨rfl, rfl, hne⟩
          rw [List.append_nil] at hc ⊢
          exact hc
        · rintro ⟨-, -, hne⟩
          change c.transaction.stored ≠ l.kept
          rw [hc.stored]
          simpa using hne

theorem Holds.execute_transaction (h : Holds d.conn.transaction l) (type : TransactionType) :
    (¬Strays S d l (.execute (.transaction type)) →
        Holds (next S (d, l) (.execute (.transaction type))).1.conn.transaction
          (next S (d, l) (.execute (.transaction type))).2) ∧
      (Strays S d l (.execute (.transaction type)) →
        (next S (d, l) (.execute (.transaction type))).1.conn.transaction.stored ≠
          (next S (d, l) (.execute (.transaction type))).2.kept) := by
  simp only [next, OpenDbc.step, OpenDbc.told, OpenDbc.executeError, Strays]
  by_cases htype : type = .commit
  · subst htype
    obtain ⟨hok, hstrays⟩ := h.commits (c := (d.conn.query S (.transaction .commit)).2.transaction)
      fun ok failed hkept hfailed =>
        h.query_transaction S .commit ok (by rw [if_pos rfl, hkept]) hfailed
    simp only [true_and]
    generalize d.conn.query S (.transaction .commit) = r at hok hstrays
    obtain ⟨error, c⟩ := r
    refine ⟨fun hstray => ?_, fun hstray => ?_⟩
    · cases error with
      | none => exact (hok hstray).ok rfl
      | some msg => exact (hok hstray).failed (by simp)
    · obtain ⟨rfl, hother⟩ := hstray
      exact hstrays rfl hother
  · have hq := h.query_transaction S type (noted l (type.event true)) (by rw [if_neg htype]) rfl
    refine ⟨fun _ => ?_, fun hstray => absurd hstray.1 htype⟩
    generalize d.conn.query S (.transaction type) = r at hq
    obtain ⟨error, c⟩ := r
    cases error with
    | none => exact hq.ok rfl
    | some msg => exact hq.failed (by simp)

/-- A call keeps the engine with the ledger unless it goes astray, and then they differ behind
it. -/
theorem Holds.next (h : Holds d.conn.transaction l) (c : Call ω) :
    (¬Strays S d l c →
        Holds (Transactions.next S (d, l) c).1.conn.transaction (Transactions.next S (d, l) c).2) ∧
      (Strays S d l c →
        (Transactions.next S (d, l) c).1.conn.transaction.stored ≠
          (Transactions.next S (d, l) c).2.kept) := by
  cases c with
  | setAutocommit value => exact h.setAutocommit value
  | endTran completionType last => exact h.endTran completionType last
  | prepare raises => exact ⟨fun _ => h.prepare S raises, False.elim⟩
  | fetch a => exact ⟨fun _ => h.fetch S a, False.elim⟩
  | execute s =>
    cases s with
    | transaction type => exact h.execute_transaction type
    | work w =>
      cases w with
      | wrote ws => exact h.execute_wrote ws
      | streams => exact ⟨fun _ => h.query_work S (by simp), False.elim⟩
      | raises invalidates => exact ⟨fun _ => h.query_work S (by simp), False.elim⟩

end Step

/-- A connection with nothing pending, and the ledger of it. Where the parser split a statement
before, `auto_rollback` may be left on. -/
def opening (autocommit autoRollback : Bool) (stored : List ω) : OpenDbc ω × Ledger ω :=
  let d : OpenDbc ω := .connected autocommit stored
  ({ d with
      conn := { d.conn with
        transaction := { d.conn.transaction with autoRollback := autoRollback } } },
    ⟨!autocommit, false, stored, []⟩)

/-- The connection and the ledger after some calls. -/
def after (S : Storage ω) (autocommit autoRollback : Bool) (stored : List ω)
    (calls : List (Call ω)) :
    OpenDbc ω × Ledger ω :=
  calls.foldl (next S) (opening autocommit autoRollback stored)

theorem holds_opening (autocommit autoRollback : Bool) (stored : List ω) :
    Holds (opening autocommit autoRollback stored).1.conn.transaction
      (opening autocommit autoRollback stored).2 := by
  cases autocommit with
  | true => exact .of_auto rfl rfl rfl
  | false => exact ⟨rfl, nofun, fun _ => rfl, fun _ => rfl, List.nil_suffix⟩

/-- In a run of a connection, whatever the statements do and the engine answers, the database has
stored what the application takes it to have stored, after every call, just when no call goes
astray. -/
theorem stored_follows_iff (S : Storage ω) (autocommit autoRollback : Bool) (stored : List ω)
    (calls : List (Call ω)) :
    (∀ pre, pre <+: calls → (after S autocommit autoRollback stored pre).1.conn.transaction.stored =
        (after S autocommit autoRollback stored pre).2.kept) ↔
      ∀ pre c, pre ++ [c] <+: calls → ¬Strays S (after S autocommit autoRollback stored pre).1
        (after S autocommit autoRollback stored pre).2 c :=
  Run.forall_prefix_iff (fun p => Holds p.1.conn.transaction p.2)
    (fun p : OpenDbc ω × Ledger ω => p.1.conn.transaction.stored = p.2.kept)
    (fun p c => Strays S p.1 p.2 c) (fun _ hp => hp.stored) (fun _ c hp => (hp.next c).1)
    (fun _ c hp => (hp.next c).2) calls (holds_opening autocommit autoRollback stored)

/-- The write of a transaction that the engine rolled back behind a failed statement is lost to a
commit that succeeds. -/
example :
    let p := after ⟨fun _ _ => none, fun _ => rfl⟩ false true ([] : List ℕ)
      [.execute (.work (.wrote [1])), .execute (.work (.raises true)), .endTran 0 .nothing]
    p.1.conn.transaction.stored = [] ∧ p.2.kept = [1] :=
  ⟨rfl, rfl⟩

end HaybarnOdbc.Transactions
