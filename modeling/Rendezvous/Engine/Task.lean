import Rendezvous.KeyLocks
import Rendezvous.OutcomeBoard
import Rendezvous.Registry

/-!
# Tasks of an engine

Every message is handled by a task of its own; sweeps, waiting callers and outside holders of a lock
are tasks too.  A task runs without interruption up to the next point where it has to wait: for the
lock of a key, for the answer of a service, or for an outcome.  `Task` lists these points, so a
state of an engine says of each task where it stands and what it will do next.
-/

namespace Rendezvous

/-- A question to one of the services around the engine. -/
inductive Call
  | resolve (provider : String) (asset : AssetId)
  | negotiate (offer : ContractOffer)
  | transfer (request : TransferRequest)
deriving DecidableEq

/-- A service's answer to a call. -/
inductive Reply
  | offer (answer : Except EngineError ContractOffer)
  | negotiation (answer : Except EngineError NegotiationId)
  | transfer (answer : Except EngineError TransferProcessId)

/-- A notice that a service gives by itself. -/
inductive Callback
  | accepted (negotiation : NegotiationId)
  | confirmed (negotiation : NegotiationId) (contract : ContractId)
  | negotiationFailed (negotiation : NegotiationId) (reason : String)
  | transferStarted (key : CorrelationKey)
  | dataReference (key : CorrelationKey) (reference : DataReference)
  | transferFailed (key : CorrelationKey) (reason : String)
deriving DecidableEq

/-- A sweep under way. -/
structure Sweep where
  startedAt : Nat
  /-- The cases found expired that the sweep has not looked at again, with the stages seen. -/
  rest : List (CorrelationKey × Stage)
  evicted : Nat := 0
deriving DecidableEq

/-- What a task does once it owns the lock of a key. -/
inductive Section
  /-- Handle a message. -/
  | handle (m : Message)
  /-- Evict the case of `key` if it is as the sweep saw it. -/
  | evict (sweep : Sweep) (key : CorrelationKey) (seen : Stage)
  /-- Keep the lock until told to give it back. -/
  | keep (key : CorrelationKey)
deriving DecidableEq

/-- The key whose lock the section needs. -/
def Section.key : Section → CorrelationKey
  | .handle m => m.key
  | .evict _ key _ => key
  | .keep key => key

/-- Where a task stands. -/
inductive Task
  /-- A handler that has not begun. -/
  | arriving (m : Message)
  /-- A sweep that has not begun. -/
  | sweeping
  /-- A sweep between two of its keys; it stands in no queue. -/
  | walking (s : Sweep)
  /-- An outside holder that has not asked for the lock. -/
  | seeking (key : CorrelationKey)
  /-- In the queue for a lock, or at its head. -/
  | locking (s : Section)
  /-- In the queue for a lock, or at its head, for a caller who acts by itself. -/
  | claiming (key : CorrelationKey)
  /-- Owns the lock of `m.key` and waits for an offer. -/
  | resolving (m : Message) (asset : AssetId) (provider : String)
  /-- Owns the lock of `m.key` and waits for a negotiation to begin. -/
  | negotiating (m : Message) (asset : AssetId) (provider : String) (offer : ContractOffer)
  /-- Owns the lock of `m.key`, has taken its record and waits for a transfer to begin. -/
  | transferring (m : Message) (c : Case) (request : TransferRequest)
  /-- Owns the lock of a key for somebody outside. -/
  | holding (key : CorrelationKey)
  /-- Waits for the outcome of `key`, at most until `deadline`. -/
  | awaiting (key : CorrelationKey) (deadline : Nat)
deriving DecidableEq

/-- The call whose reply a task waits for. -/
def Task.call? : Task → Option Call
  | .resolving _ asset provider => some (.resolve provider asset)
  | .negotiating _ _ _ offer => some (.negotiate offer)
  | .transferring _ _ request => some (.transfer request)
  | _ => none

/-- The key whose lock a task owns, or waits for, at the point where it stands. -/
def Task.key? : Task → Option CorrelationKey
  | .locking s => some s.key
  | .claiming key => some key
  | .resolving m .. | .negotiating m .. | .transferring m .. => some m.key
  | .holding key => some key
  | _ => none

/-- What a finished task leaves for whoever started it. -/
inductive Finish
  | handled
  | swept (evicted : Nat)
  | outcome (o : Option Outcome)
  | cancelled
deriving DecidableEq

/-- Something that happened in an engine. -/
inductive Event
  /-- The bus took a message. -/
  | published (m : Message)
  /-- A task was started and can run. -/
  | spawned (t : TaskId)
  /-- A waiting task came to own its lock and can run. -/
  | granted (t : TaskId)
  /-- A listening task was woken by a record and can run. -/
  | notified (t : TaskId)
  /-- A request was handled whose key had no case. -/
  | accepted (key : CorrelationKey)
  | registered (key : CorrelationKey)
  | called (c : Call)
  | held (t : TaskId) (key : CorrelationKey)
  | evicted (key : CorrelationKey)
  | recorded (key : CorrelationKey) (o : Outcome)
  /-- A handler ended with an error. -/
  | faulted (m : Message) (e : EngineError)
  | finished (t : TaskId) (f : Finish)
deriving DecidableEq

end Rendezvous
