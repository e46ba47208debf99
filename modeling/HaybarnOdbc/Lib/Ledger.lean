import Mathlib.Tactic.TypeStar

/-!
# Kept and pending writes

What a client is told of its writes, and what it may conclude of them. A write is kept at once,
or it is pending as long as the client commits itself (`manual`) or has a transaction open
(`opened`) : a commit keeps what is pending and a rollback drops it. A client that no longer
commits itself has its pending writes kept.
-/

/-- The writes of a client that are kept, and the ones that are pending. -/
structure Ledger (ω : Type*) where
  manual : Bool
  opened : Bool
  kept : List ω
  work : List ω

namespace Ledger

variable {ω : Type*}

/-- What a client is told. -/
inductive Event (ω : Type*)
  | wrote (ws : List ω)
  | began
  | committed
  | rolledBack
  | setManual (on : Bool)

/-- Writes are pending until a commit. -/
def deferred (l : Ledger ω) : Bool := l.manual || l.opened

/-- What is pending is kept. -/
def commit (l : Ledger ω) : Ledger ω :=
  { l with opened := false, kept := l.kept ++ l.work, work := [] }

/-- What an event does to the ledger. -/
def apply (l : Ledger ω) : Event ω → Ledger ω
  | .wrote ws =>
    if l.deferred then { l with work := l.work ++ ws } else { l with kept := l.kept ++ ws }
  | .began => { l with opened := true }
  | .committed => l.commit
  | .rolledBack => { l with opened := false, work := [] }
  | .setManual on => if on then { l with manual := true } else { l.commit with manual := false }

end Ledger
