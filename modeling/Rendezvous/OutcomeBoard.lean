import Rendezvous.ExpiringMap
import Rendezvous.KeyLocks
import Rendezvous.Message

/-!
# Outcomes

A finished request leaves one outcome on the board.  Reading an outcome by `take` consumes it; an
outcome that nobody reads expires.  Tasks that wait for an outcome listen to the board: every record
wakes all of them, in the order in which they began to listen, and each looks for its own key.
-/

namespace Rendezvous

/-- How a request ended. -/
inductive Outcome
  | success (reference : DataReference)
  | error (reason : FailureReason)
deriving DecidableEq

/-- The outcomes not yet read and the tasks waiting for one. -/
structure OutcomeBoard where
  outcomes : ExpiringMap CorrelationKey Outcome
  /-- The tasks that the next record wakes, in the order in which they began to listen. -/
  listeners : List TaskId := []

namespace OutcomeBoard

/-- An empty board whose outcomes can be read for `ttl`. -/
def empty (ttl : Nat) : OutcomeBoard := { outcomes := { ttl } }

/-- Puts up the outcome of `key`, over an older one, and wakes every listener. -/
def record (b : OutcomeBoard) (now : Nat) (key : CorrelationKey) (o : Outcome) : OutcomeBoard :=
  { outcomes := b.outcomes.insert now key o, listeners := [] }

/-- Reads and consumes the outcome of `key`. -/
def take (b : OutcomeBoard) (now : Nat) (key : CorrelationKey) : Option Outcome × OutcomeBoard :=
  let (o, outcomes) := b.outcomes.take now key
  (o, { b with outcomes })

/-- Reads the outcome of `key` without consuming it. -/
def peek (b : OutcomeBoard) (now : Nat) (key : CorrelationKey) : Option Outcome × OutcomeBoard :=
  let (o, outcomes) := b.outcomes.get now key
  (o, { b with outcomes })

/-- Drops the expired outcomes and tells how many there were. -/
def purge (b : OutcomeBoard) (now : Nat) : Nat × OutcomeBoard :=
  let (n, outcomes) := b.outcomes.purge now
  (n, { b with outcomes })

/-- Task `t` no longer listens. -/
def unlisten (b : OutcomeBoard) (t : TaskId) : OutcomeBoard :=
  { b with listeners := b.listeners.filter (· ≠ t) }

/-- Task `t` listens, behind all others. -/
def listen (b : OutcomeBoard) (t : TaskId) : OutcomeBoard :=
  { b with listeners := b.listeners.filter (· ≠ t) ++ [t] }

end OutcomeBoard

end Rendezvous
