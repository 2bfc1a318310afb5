import Rendezvous.Bus
import Rendezvous.CaseStore
import Rendezvous.Engine.Task

/-!
# The state of an engine

An engine is the store of cases, the registry of negotiations, the board of outcomes, the cache of
offers, the bus and the tasks at work on them, at one instant.  The operations here are the ones
that every handler and every sweep is made of; each leaves its mark in the history.
-/

namespace Rendezvous

/-- Offers already looked up, by provider and asset. -/
abbrev OfferCache := ExpiringMap (String × AssetId) ContractOffer

/-- Everything an engine consists of, at one instant. -/
structure Engine where
  now : Nat := 0
  /-- The kind of destination that transfers go to. -/
  destination : String
  /-- How long an early confirmation is kept. -/
  parkedTtl : Nat
  store : CaseStore
  registry : Registry := {}
  board : OutcomeBoard
  offers : OfferCache
  bus : Bus := {}
  tasks : Assoc TaskId Task := {}
  /-- Larger than the name of every task started so far. -/
  nextTask : TaskId := 0
  /-- What has happened, latest first. -/
  history : List Event := []

namespace Engine

/-- Adds to the history. -/
def note (e : Engine) (ev : Event) : Engine := { e with history := ev :: e.history }

/-- Publishes a message, unless the bus is closed. -/
def publish (e : Engine) (m : Message) : Engine :=
  if e.bus.isOpen then ({ e with bus := e.bus.publish m }).note (.published m) else e

/-- Adds a task. -/
def addTask (e : Engine) (task : Task) : TaskId × Engine :=
  (e.nextTask, { e with tasks := e.tasks.insert e.nextTask task, nextTask := e.nextTask + 1 })

/-- Adds a task and announces that it can run. -/
def spawn (e : Engine) (task : Task) : TaskId × Engine :=
  let (t, e) := e.addTask task
  (t, e.note (.spawned t))

/-- Moves a task to the point `task`. -/
def setTask (e : Engine) (t : TaskId) (task : Task) : Engine :=
  { e with tasks := e.tasks.insert t task }

/-- Ends a task. -/
def finish (e : Engine) (t : TaskId) (f : Finish) : Engine :=
  ({ e with tasks := e.tasks.erase t }).note (.finished t f)

/-- Task `t` joins the queue for the lock of `key`. -/
def askLock (e : Engine) (t : TaskId) (key : CorrelationKey) : Engine :=
  { e with store := { e.store with locks := e.store.locks.ask key t } }

/-- Whether task `t` owns the lock of `key`. -/
def owns (e : Engine) (t : TaskId) (key : CorrelationKey) : Bool :=
  e.store.locks.owner? key = some t

/-- Task `t` leaves the queue of `key`; if it was at the head the next one owns the lock. -/
def leaveLock (e : Engine) (t : TaskId) (key : CorrelationKey) : Engine :=
  let heir? := e.store.locks.heir? key t
  let e := { e with store := { e.store with locks := e.store.locks.leave key t } }
  match heir? with
  | some heir => e.note (.granted heir)
  | none => e

/-- Records an outcome and wakes the listeners. -/
def record (e : Engine) (key : CorrelationKey) (o : Outcome) : Engine :=
  let woken := e.board.listeners
  let e := ({ e with board := e.board.record e.now key o }).note (.recorded key o)
  woken.foldl (fun e t => e.note (.notified t)) e

/-- Reads and consumes an outcome. -/
def takeOutcome (e : Engine) (key : CorrelationKey) : Option Outcome × Engine :=
  let (o, board) := e.board.take e.now key
  (o, { e with board })

/-- Removes the case of `key` and closes its negotiation. -/
def close (e : Engine) (key : CorrelationKey) : Engine :=
  { e with store := e.store.remove key, registry := (e.registry.take e.now key).2 }

end Engine

end Rendezvous
